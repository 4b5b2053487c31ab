import FluentBuilders.Text.ByteOrder
import FluentBuilders.Text.Quoted
import FluentBuilders.Decimal.Layout

/-! # Faults of a text in the data format

Reading stops at the first fault.  A fault has a cause and a place; the place is
kept as the number of bytes that were left when it was noticed, so a reader that
sees only the rest of the text can name it.  The place is never beyond the end
of the text (`Fault.offset_le`).  Each cause has one wording (`Cause.message`).
-/
namespace FluentBuilders
namespace Json

/-- What is left of a text that is being read. -/
abbrev Input := List Char

/-- A value that was met where another kind of value was wanted. -/
inductive Found where
  | null
  | boolean (value : Bool)
  | whole (value : Int)
  | floating (value : Decimal.Signed)
  | text (content : List Char)
  | sequence
  | mapping
deriving DecidableEq, Repr

/-- The kind of value that was wanted. -/
inductive Expected where
  | text
  | sequence
  | element
  | nothing
deriving DecidableEq, Repr

/-- Why a text cannot be read. -/
inductive Cause where
  | endInValue
  | endInString
  | endInList
  | endInObject
  | unknownWord
  | expectedValue
  | expectedCommaOrBracket
  | expectedCommaOrBrace
  | expectedColon
  | trailingComma
  | trailingCharacters
  | keyNotString
  | controlCharacter
  | invalidEscape
  | loneSurrogate
  | brokenSurrogatePair
  | invalidNumber
  | numberOutOfRange
  | duplicateField (field : String)
  | missingField (field : String)
  | tooFewItems (count : Nat)
  | wrongType (found : Found) (expected : Expected)
  | unknownVariant (name : String)
deriving DecidableEq, Repr

/-- Numbers in a message are positional from one hundred-thousandth up to sixteen
digits before the point. -/
def numberLayout : Decimal.Layout := ⟨-5, 15⟩

/-- How a value is described in a message. -/
def Found.description : Found → String
  | .null => "null"
  | .boolean value => "boolean `" ++ (if value then "true" else "false") ++ "`"
  | .whole value => "integer `" ++ toString value ++ "`"
  | .floating value => "floating point `" ++ String.ofList (numberLayout.text value) ++ "`"
  | .text content => "string " ++ String.ofList (Text.quoted content)
  | .sequence => "sequence"
  | .mapping => "map"

/-- How a wanted kind is named in a message. -/
def Expected.description : Expected → String
  | .text => "a string"
  | .sequence => "a sequence"
  | .element => "struct TaggedElement"
  | .nothing => "unit"

/-- The wording of a cause. -/
def Cause.message : Cause → String
  | .endInValue => "EOF while parsing a value"
  | .endInString => "EOF while parsing a string"
  | .endInList => "EOF while parsing a list"
  | .endInObject => "EOF while parsing an object"
  | .unknownWord => "expected ident"
  | .expectedValue => "expected value"
  | .expectedCommaOrBracket => "expected `,` or `]`"
  | .expectedCommaOrBrace => "expected `,` or `\x7d`"
  | .expectedColon => "expected `:`"
  | .trailingComma => "trailing comma"
  | .trailingCharacters => "trailing characters"
  | .keyNotString => "key must be a string"
  | .controlCharacter => "control character (\\u0000-\\u001F) found while parsing a string"
  | .invalidEscape => "invalid escape"
  | .loneSurrogate => "lone leading surrogate in hex escape"
  | .brokenSurrogatePair => "unexpected end of hex escape"
  | .invalidNumber => "invalid number"
  | .numberOutOfRange => "number out of range"
  | .duplicateField field => "duplicate field `" ++ field ++ "`"
  | .missingField field => "missing field `" ++ field ++ "`"
  | .tooFewItems count =>
    "invalid length " ++ toString count ++ ", expected struct TaggedElement with 4 elements"
  | .wrongType found expected =>
    "invalid type: " ++ found.description ++ ", expected " ++ expected.description
  | .unknownVariant name => "unknown variant `" ++ name ++ "`, expected `error`"

/-- A cause and the number of bytes left at the place where it was noticed. -/
structure Fault where
  cause : Cause
  left : Nat
deriving DecidableEq, Repr

/-- What a reader returns: a value with the input after it, or a fault. -/
abbrev Read (α : Type) := Except Fault (α × Input)

/-- A fault noticed in front of the rest of the text. -/
def Fault.before (cause : Cause) (rest : Input) : Fault :=
  ⟨cause, Text.byteCount rest⟩

/-- A fault noticed once some bytes of the rest of the text have been looked at,
as far as there are any. -/
def Fault.past (looked : Nat) (cause : Cause) (rest : Input) : Fault :=
  ⟨cause, Text.byteCount rest - looked⟩

/-- A fault noticed once one byte of the rest of the text has been looked at. -/
def Fault.after (cause : Cause) (rest : Input) : Fault :=
  Fault.past 1 cause rest

/-- The number of bytes of a text in front of a fault. -/
def Fault.offset (fault : Fault) (text : Input) : Nat :=
  Text.byteCount text - fault.left

theorem Fault.offset_le (fault : Fault) (text : Input) :
    fault.offset text ≤ Text.byteCount text := Nat.sub_le _ _

/-- A line, counted from one, and a byte in it. -/
structure Position where
  line : Nat
  column : Nat
deriving DecidableEq, Repr

/-- The position after some bytes of a text. -/
def Position.advance : Position → Input → Nat → Position
  | here, [], _ => here
  | here, _ :: _, 0 => here
  | here, c :: rest, offset + 1 =>
    if c = '\n' then advance ⟨here.line + 1, 0⟩ rest offset
    else
      advance ⟨here.line, here.column + min (offset + 1) c.utf8Size⟩ rest
        (offset + 1 - c.utf8Size)

/-- The position that lies some bytes into a text. -/
def Position.ofOffset (text : Input) (offset : Nat) : Position :=
  Position.advance ⟨1, 0⟩ text offset

/-- A fault of a text together with its position there. -/
structure Complaint where
  cause : Cause
  position : Position
deriving DecidableEq, Repr

/-- A fault as a complaint about the whole text. -/
def Fault.complaint (fault : Fault) (text : Input) : Complaint :=
  ⟨fault.cause, Position.ofOffset text (fault.offset text)⟩

/-- The text of a complaint. -/
def Complaint.message (complaint : Complaint) : String :=
  complaint.cause.message ++ " at line " ++ toString complaint.position.line ++
    " column " ++ toString complaint.position.column

/-- On a text of one line every position is on that line, as many bytes in as
the offset tells. -/
theorem Position.advance_of_not_mem (here : Position) (text : Input) (offset : Nat)
    (h : '\n' ∉ text) (hle : offset ≤ Text.byteCount text) :
    Position.advance here text offset = ⟨here.line, here.column + offset⟩ := by
  induction text generalizing here offset with
  | nil =>
    have h0 : offset = 0 := Nat.le_zero.mp hle
    subst h0
    cases here; rfl
  | cons c rest ih =>
    cases offset with
    | zero => cases here; rfl
    | succ offset =>
      have hc : c ≠ '\n' := fun hc => h (by rw [hc]; exact List.mem_cons_self)
      have hrest : '\n' ∉ rest := fun hm => h (List.mem_cons_of_mem c hm)
      have hlen : Text.byteCount (c :: rest) = c.utf8Size + Text.byteCount rest := rfl
      rw [Position.advance, if_neg hc, ih _ _ hrest (by omega)]
      simp only [Position.mk.injEq, true_and]
      omega

theorem Position.ofOffset_of_not_mem {text : Input} {offset : Nat} (h : '\n' ∉ text)
    (hle : offset ≤ Text.byteCount text) : Position.ofOffset text offset = ⟨1, offset⟩ := by
  rw [Position.ofOffset, Position.advance_of_not_mem _ _ _ h hle, Nat.zero_add]

end Json
end FluentBuilders
