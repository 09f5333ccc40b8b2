import LineScript.Text.Quoted

/-!
# Encodings

Scripts and inputs arrive as bytes, and an output may accept only some characters. An `Encoding`
decodes bytes to text and says which characters it can write. Decoding UTF-8 is one pass over the
bytes that keeps the sequence it is inside of; the first fault names the bytes of the longest
correct beginning of a sequence that goes wrong. Writing reports the first run of characters that
the encoding does not have.
-/

set_option autoImplicit false

namespace LineScript.Text

/-- The encodings a script, an input or an output can have. `utf8Marked` is UTF-8 whose byte order
mark, if there is one, is not part of the text. -/
inductive Encoding where
  | utf8
  | utf8Marked
  | latin1
  | ascii
  deriving DecidableEq, Repr

namespace Encoding

/-- The name by which messages call an encoding. -/
def codec : Encoding → String
  | utf8 => "utf-8"
  | utf8Marked => "utf-8"
  | latin1 => "latin-1"
  | ascii => "ascii"

/-- An encoding's name in its common form: ASCII letters in lower case, each run of characters that
are neither letters nor digits nor a point as one underscore, none at the ends. -/
def commonName (name : String) : String :=
  let wordChar (c : Char) : Bool := c.isAlphanum || c == '.'
  let words := name.toList.splitBy fun a b => wordChar a == wordChar b
  String.intercalate "_" ((words.filter fun word => word.all wordChar).map fun word =>
    String.ofList (word.map Char.toLower))

/-- An encoding's own name, in its common form. -/
def name : Encoding → String
  | utf8 => "utf_8"
  | utf8Marked => "utf_8_sig"
  | latin1 => "latin_1"
  | ascii => "ascii"

/-- The other names an encoding goes by, in their common form. -/
def aliases : Encoding → List String
  | utf8 => ["utf8", "u8", "utf", "utf8_ucs2", "utf8_ucs4", "cp65001"]
  | utf8Marked => []
  | latin1 =>
    ["latin1", "latin", "l1", "8859", "cp819", "csisolatin1", "ibm819", "iso8859", "iso8859_1",
     "iso_8859_1", "iso_8859_1_1987", "iso_ir_100"]
  | ascii =>
    ["us_ascii", "us", "646", "ansi_x3.4_1968", "ansi_x3_4_1968", "ansi_x3.4_1986", "cp367",
     "csascii", "ibm367", "iso646_us", "iso_646.irv_1991", "iso_ir_6"]

/-- Every encoding. -/
def all : List Encoding := [utf8, utf8Marked, latin1, ascii]

/-- The encoding that a name in common form stands for. The points in a name may stand for
underscores in another name of the encoding, but not in its own name. -/
def ofCommonName? (name : String) : Option Encoding :=
  let pointless := name.map fun c => if c = '.' then '_' else c
  all.find? fun encoding =>
    encoding.name == name || encoding.aliases.contains name ||
      encoding.aliases.contains pointless

/-- The encoding that a name stands for. The encoding of the system is UTF-8. -/
def ofName? (name : String) : Option Encoding :=
  if name = "locale" then some utf8 else ofCommonName? (commonName name)

end Encoding

/-! ## Decoding -/

/-- Why bytes are not text. -/
inductive DecodeFault.Reason where
  | invalidStart
  | invalidContinuation
  | endOfData
  | notAscii
  deriving DecidableEq, Repr

/-- The wording of a reason. -/
def DecodeFault.Reason.message : DecodeFault.Reason → String
  | invalidStart => "invalid start byte"
  | invalidContinuation => "invalid continuation byte"
  | endOfData => "unexpected end of data"
  | notAscii => "ordinal not in range(128)"

/-- Bytes that are not text: the first of them, its position, how many there are, and the reason. -/
structure DecodeFault where
  codec : String
  position : Nat
  first : UInt8
  count : Nat
  reason : DecodeFault.Reason
  deriving DecidableEq, Repr

/-- One byte is shown by its value, several by the first and last position. -/
def DecodeFault.message (fault : DecodeFault) : String :=
  if fault.count ≤ 1 then
    s!"'{fault.codec}' codec can't decode byte 0x" ++ String.ofList (hex 2 fault.first.toNat) ++
      s!" in position {fault.position}: {fault.reason.message}"
  else
    s!"'{fault.codec}' codec can't decode bytes in position {fault.position}-" ++
      s!"{fault.position + fault.count - 1}: {fault.reason.message}"

/-- A UTF-8 sequence whose bytes are not all read: where it started, the value of the bytes read,
how many bytes are missing, and the bounds of the next one. -/
structure Utf8Sequence where
  position : Nat
  first : UInt8
  read : Nat
  code : Nat
  missing : Nat
  low : Nat
  high : Nat
  deriving DecidableEq, Repr

/-- The sequence that a byte beyond ASCII starts. The bounds of the second byte leave out long
forms, surrogates and code points past the last one. -/
def Utf8Sequence.start? (position : Nat) (byte : UInt8) : Option Utf8Sequence :=
  let b := byte.toNat
  if 0xc2 ≤ b ∧ b ≤ 0xdf then some ⟨position, byte, 1, b - 0xc0, 1, 0x80, 0xbf⟩
  else if b = 0xe0 then some ⟨position, byte, 1, b - 0xe0, 2, 0xa0, 0xbf⟩
  else if b = 0xed then some ⟨position, byte, 1, b - 0xe0, 2, 0x80, 0x9f⟩
  else if 0xe1 ≤ b ∧ b ≤ 0xef then some ⟨position, byte, 1, b - 0xe0, 2, 0x80, 0xbf⟩
  else if b = 0xf0 then some ⟨position, byte, 1, b - 0xf0, 3, 0x90, 0xbf⟩
  else if 0xf1 ≤ b ∧ b ≤ 0xf3 then some ⟨position, byte, 1, b - 0xf0, 3, 0x80, 0xbf⟩
  else if b = 0xf4 then some ⟨position, byte, 1, b - 0xf0, 3, 0x80, 0x8f⟩
  else none

/-- The fault of a sequence that goes wrong after the bytes read. -/
def Utf8Sequence.fault (sequence : Utf8Sequence) (reason : DecodeFault.Reason) : DecodeFault :=
  ⟨Encoding.utf8.codec, sequence.position, sequence.first, sequence.read, reason⟩

/-- Whether a byte makes a sequence the beginning of a surrogate, which is no character. -/
def Utf8Sequence.isSurrogate (sequence : Utf8Sequence) (byte : UInt8) : Bool :=
  sequence.high = 0x9f ∧ 0xa0 ≤ byte.toNat ∧ byte.toNat ≤ 0xbf

/-- The sequence that no byte continues. -/
def Utf8Sequence.closed (sequence : Utf8Sequence) : Utf8Sequence :=
  { sequence with low := 1, high := 0 }

/-- The fault of a sequence that the data ends inside of. -/
def Utf8Sequence.endFault (sequence : Utf8Sequence) : DecodeFault :=
  sequence.fault (if sequence.high < sequence.low then .invalidContinuation else .endOfData)

/-- Decodes UTF-8 from a position on, inside of a sequence or between two. The sequence that the
bytes end inside of is given along with the text. When the bytes end at the second byte of a
surrogate, the sequence is given closed: it is found wrong as soon as anything follows. -/
def decodeUtf8 : Nat → Option Utf8Sequence → List UInt8 →
    Except DecodeFault (List Char × Option Utf8Sequence)
  | _, unfinished, [] => .ok ([], unfinished)
  | position, none, byte :: bytes =>
    if byte.toNat < 0x80 then do
      let (text, unfinished) ← decodeUtf8 (position + 1) none bytes
      .ok (Char.ofNat byte.toNat :: text, unfinished)
    else
      match Utf8Sequence.start? position byte with
      | none => .error ⟨Encoding.utf8.codec, position, byte, 1, .invalidStart⟩
      | some sequence => decodeUtf8 (position + 1) (some sequence) bytes
  | position, some sequence, byte :: bytes =>
    if sequence.low ≤ byte.toNat ∧ byte.toNat ≤ sequence.high then
      let code := sequence.code * 64 + (byte.toNat - 0x80)
      if sequence.missing ≤ 1 then do
        let (text, unfinished) ← decodeUtf8 (position + 1) none bytes
        .ok (Char.ofNat code :: text, unfinished)
      else
        decodeUtf8 (position + 1)
          (some ⟨sequence.position, sequence.first, sequence.read + 1, code,
            sequence.missing - 1, 0x80, 0xbf⟩) bytes
    else if sequence.isSurrogate byte ∧ bytes.isEmpty then .ok ([], some sequence.closed)
    else .error (sequence.fault .invalidContinuation)

/-- Text may not end inside of a sequence. -/
def decodeWhole (bytes : List UInt8) : Except DecodeFault (List Char) :=
  match decodeUtf8 0 none bytes with
  | .error fault => .error fault
  | .ok (text, none) => .ok text
  | .ok (_, some sequence) => .error sequence.endFault

/-- Decodes ASCII from a position on. -/
def decodeAscii : Nat → List UInt8 → Except DecodeFault (List Char)
  | _, [] => .ok []
  | position, byte :: bytes =>
    if byte.toNat < 0x80 then
      (decodeAscii (position + 1) bytes).map (Char.ofNat byte.toNat :: ·)
    else .error ⟨Encoding.ascii.codec, position, byte, 1, .notAscii⟩

/-- The byte order mark of UTF-8. -/
def byteOrderMark : List UInt8 := [0xef, 0xbb, 0xbf]

/-- Decodes UTF-8 after its byte order mark, counting positions from there. Bytes that are only the
beginning of a mark are an empty text. -/
def decodeMarked (bytes : List UInt8) : Except DecodeFault (List Char) :=
  if bytes.length < 3 ∧ bytes.isPrefixOf byteOrderMark then .ok []
  else if byteOrderMark.isPrefixOf bytes then decodeWhole (bytes.drop 3)
  else decodeWhole bytes

/-- The text that bytes stand for. -/
def Encoding.decode : Encoding → List UInt8 → Except DecodeFault (List Char)
  | utf8, bytes => decodeWhole bytes
  | utf8Marked, bytes => decodeMarked bytes
  | latin1, bytes => .ok (bytes.map fun byte => Char.ofNat byte.toNat)
  | ascii, bytes => decodeAscii 0 bytes

/-! ## Encoding -/

/-- Characters that an encoding cannot write: a run of neighbours and its position. -/
structure EncodeFault where
  codec : String
  limit : Nat
  position : Nat
  characters : List Char
  deriving DecidableEq, Repr

/-- One character is shown by its code point, several by the first and last position. -/
def EncodeFault.message (fault : EncodeFault) : String :=
  let reason := s!": ordinal not in range({fault.limit})"
  match fault.characters with
  | [c] =>
    s!"'{fault.codec}' codec can't encode character '" ++ String.ofList (escapeCode c) ++
      s!"' in position {fault.position}" ++ reason
  | characters =>
    s!"'{fault.codec}' codec can't encode characters in position {fault.position}-" ++
      s!"{fault.position + characters.length - 1}" ++ reason

/-- The code point at which an encoding's characters end, if they do. -/
def Encoding.limit? : Encoding → Option Nat
  | utf8 => none
  | utf8Marked => none
  | latin1 => some 0x100
  | ascii => some 0x80

/-- The fault in writing a text: the first run of characters at or past the encoding's limit. -/
def Encoding.encodeFault? (encoding : Encoding) (text : List Char) : Option EncodeFault :=
  match encoding.limit? with
  | none => none
  | some limit =>
    let good := text.takeWhile fun c => decide (c.toNat < limit)
    let run := (text.dropWhile fun c => decide (c.toNat < limit)).takeWhile fun c =>
      decide (limit ≤ c.toNat)
    if run.isEmpty then none else some ⟨encoding.codec, limit, good.length, run⟩

end LineScript.Text
