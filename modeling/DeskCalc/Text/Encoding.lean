import DeskCalc.Text.Basic

/-! Encodings of text as bytes: UTF-8, Latin-1 and ASCII.  Decoding stops at the first bytes that no
text has and says which they are. -/

namespace DeskCalc

inductive Encoding where
  | utf8
  | latin1
  | ascii
  deriving DecidableEq, Repr

namespace Encoding

def name : Encoding → Text
  | utf8 => "utf-8".toList
  | latin1 => "latin-1".toList
  | ascii => "ascii".toList

/-- The key of an encoding's name: small letters, digits and dots, and one underscore for what stands
between them. -/
def key (t : Text) : Text :=
  let marked := t.map fun c => if c.isAlphanum || c = '.' then c.toLower else '_'
  Text.join ['_'] ((Text.cut '_' marked).filter (· ≠ []))

def keys : List (Text × Encoding) :=
  [("utf_8".toList, utf8), ("latin_1".toList, latin1), ("ascii".toList, ascii)]

def aliases : List (Text × Encoding) :=
  (["utf", "utf8", "u8", "utf8_ucs2", "utf8_ucs4", "cp65001"].map fun n => (n.toList, utf8))
    ++ (["latin", "latin1", "l1", "8859", "iso8859", "iso8859_1", "iso_8859_1", "iso_8859_1_1987",
        "iso_ir_100", "cp819", "ibm819", "csisolatin1"].map fun n => (n.toList, latin1))
    ++ (["us", "us_ascii", "646", "iso_646.irv_1991", "iso646_us", "iso_ir_6", "ansi_x3.4_1968",
        "ansi_x3_4_1968", "ansi_x3.4_1986", "cp367", "ibm367", "csascii"].map fun n => (n.toList, ascii))

/-- The name that stands for the encoding of the surroundings, which is UTF-8. -/
def surroundings : Text := "locale".toList

/-- The encoding of a name.  A dot in one of the other keys may stand for an underscore. -/
def ofName? (t : Text) : Option Encoding :=
  if t = surroundings then some utf8
  else
    let k := key t
    let undotted := k.map fun c => if c = '.' then '_' else c
    aliases.lookup k <|> aliases.lookup undotted <|> keys.lookup k

end Encoding

/-- Why bytes are no text. -/
inductive DecodeFault where
  | invalidStart
  | invalidContinuation
  | unexpectedEnd
  | notAscii
  deriving DecidableEq

def DecodeFault.message : DecodeFault → Text
  | invalidStart => "invalid start byte".toList
  | invalidContinuation => "invalid continuation byte".toList
  | unexpectedEnd => "unexpected end of data".toList
  | notAscii => "ordinal not in range(128)".toList

/-- The bytes that are no text: `count` of them from `position` on, of which `byte` is the first. -/
structure DecodeError where
  encoding : Encoding
  position : Nat
  count : Nat
  byte : UInt8
  fault : DecodeFault
  deriving DecidableEq

namespace DecodeError

def hexByte (b : UInt8) : Text :=
  [Nat.digitChar (b.toNat / 16), Nat.digitChar (b.toNat % 16)]

def message (e : DecodeError) : Text :=
  '\'' :: e.encoding.name ++ "' codec can't decode ".toList
    ++ (if e.count = 1 then
        "byte 0x".toList ++ hexByte e.byte ++ " in position ".toList ++ Text.ofNat e.position
      else
        "bytes in position ".toList ++ Text.ofNat e.position ++ ['-']
          ++ Text.ofNat (e.position + e.count - 1))
    ++ [':', ' '] ++ e.fault.message

end DecodeError

namespace Utf8

def encodeChar (c : Char) : List UInt8 :=
  let n := c.toNat
  let tail (k : Nat) : UInt8 := UInt8.ofNat (0x80 + n / 64 ^ k % 64)
  if n < 0x80 then [UInt8.ofNat n]
  else if n < 0x800 then [UInt8.ofNat (0xc0 + n / 64), tail 0]
  else if n < 0x10000 then [UInt8.ofNat (0xe0 + n / 64 ^ 2), tail 1, tail 0]
  else [UInt8.ofNat (0xf0 + n / 64 ^ 3), tail 2, tail 1, tail 0]

def encode (t : Text) : List UInt8 := t.flatMap encodeChar

/-- What a byte that begins a longer sequence asks for: how many bytes follow, and the least and the
greatest that the next one may be. -/
structure Lead where
  follow : Nat
  low : Nat
  high : Nat

/-- The bytes that begin a longer sequence.  The bounds keep out long forms, surrogates and what lies
past the last character. -/
def lead? (b : UInt8) : Option Lead :=
  let n := b.toNat
  if n < 0xc2 then none
  else if n < 0xe0 then some ⟨1, 0x80, 0xbf⟩
  else if n = 0xe0 then some ⟨2, 0xa0, 0xbf⟩
  else if n = 0xed then some ⟨2, 0x80, 0x9f⟩
  else if n < 0xf0 then some ⟨2, 0x80, 0xbf⟩
  else if n = 0xf0 then some ⟨3, 0x90, 0xbf⟩
  else if n < 0xf4 then some ⟨3, 0x80, 0xbf⟩
  else if n = 0xf4 then some ⟨3, 0x80, 0x8f⟩
  else none

/-- Reads the `owed` bytes that end a sequence whose first bits are `bits`; `taken` counts the bytes
that have been read.  A fault comes with the count of bytes before it. -/
def readTail : Nat → Nat → Nat → Nat → Nat → List UInt8 → Except (Nat × DecodeFault) (Nat × Nat)
  | 0, _, _, taken, bits, _ => .ok (taken, bits)
  | _ + 1, _, _, taken, _, [] => .error (taken, .unexpectedEnd)
  | owed + 1, low, high, taken, bits, b :: rest =>
    if low ≤ b.toNat && b.toNat ≤ high then
      readTail owed 0x80 0xbf (taken + 1) (bits * 64 + b.toNat % 64) rest
    else .error (taken, .invalidContinuation)

/-- The bits that the first of several bytes gives, when `follow` bytes come after it. -/
def leadBits (follow : Nat) (b : UInt8) : Nat := b.toNat % 2 ^ (6 - follow)

/-- Decodes what is left of a text from `position` on. -/
def decodeFrom (position : Nat) : List UInt8 → Except DecodeError Text
  | [] => .ok []
  | b :: rest =>
    if b.toNat < 0x80 then
      match decodeFrom (position + 1) rest with
      | .ok t => .ok (Char.ofNat b.toNat :: t)
      | .error e => .error e
    else match lead? b with
      | none => .error ⟨.utf8, position, 1, b, .invalidStart⟩
      | some lead =>
        match readTail lead.follow lead.low lead.high 1 (leadBits lead.follow b) rest with
        | .error (count, fault) => .error ⟨.utf8, position, count, b, fault⟩
        | .ok (taken, n) =>
          match decodeFrom (position + taken) (rest.drop (taken - 1)) with
          | .ok t => .ok (Char.ofNat n :: t)
          | .error e => .error e
  termination_by bytes => bytes.length
  decreasing_by all_goals simp; try omega

end Utf8

/-- The text of ASCII bytes from `position` on. -/
def decodeAscii (position : Nat) : List UInt8 → Except DecodeError Text
  | [] => .ok []
  | b :: rest =>
    if b.toNat < 0x80 then
      match decodeAscii (position + 1) rest with
      | .ok t => .ok (Char.ofNat b.toNat :: t)
      | .error e => .error e
    else .error ⟨.ascii, position, 1, b, .notAscii⟩

/-- The text of bytes in an encoding. -/
def Encoding.decode : Encoding → List UInt8 → Except DecodeError Text
  | utf8, bytes => Utf8.decodeFrom 0 bytes
  | latin1, bytes => .ok (bytes.map fun b => Char.ofNat b.toNat)
  | ascii, bytes => decodeAscii 0 bytes

end DeskCalc
