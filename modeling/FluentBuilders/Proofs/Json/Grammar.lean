import FluentBuilders.Json.Fault

/-! # The grammar of the data format

The values of the data format and the texts that spell them: `IsValue v s` says that the
text `s` is one complete value `v`, nested to any depth.
Nothing here reads a text; the readers are compared with the grammar elsewhere.

A string is kept as it is written, piece by piece, because a string that is passed over
may hold escapes that stand for no character: the number of one half of a surrogate pair
without the other half.  `content?` gives the characters of a string that has no such
escape. -/
namespace FluentBuilders
namespace Json

/-! ## Strings -/

/-- A piece of a string as it is written. -/
inductive Piece where
  /-- A character, written as it is or by an escape with a letter. -/
  | character (c : Char)
  /-- An escape with a number of four hexadecimal digits. -/
  | unit (n : Nat)
deriving DecidableEq, Repr

/-- The letters of escapes with what they stand for. -/
def escapeLetters : List (Char × Char) :=
  [('\"', '\"'), ('\\', '\\'), ('/', '/'), ('b', '\x08'), ('f', '\x0c'), ('n', '\n'),
    ('r', '\r'), ('t', '\t')]

/-- The hexadecimal digits of both cases with their values. -/
def hexDigits : List (Char × Nat) :=
  ['0', '1', '2', '3', '4', '5', '6', '7', '8', '9'].zipIdx ++
    ['a', 'b', 'c', 'd', 'e', 'f'].zipIdx 10 ++ ['A', 'B', 'C', 'D', 'E', 'F'].zipIdx 10

/-- Four hexadecimal digits and their number. -/
inductive IsQuad : Nat → List Char → Prop where
  | digits {a b c d : Char} {i j k l : Nat} (ha : (a, i) ∈ hexDigits) (hb : (b, j) ∈ hexDigits)
      (hc : (c, k) ∈ hexDigits) (hd : (d, l) ∈ hexDigits) :
      IsQuad (((i * 16 + j) * 16 + k) * 16 + l) [a, b, c, d]

/-- The texts of a piece. -/
inductive IsPiece : Piece → List Char → Prop where
  | plain {c : Char} (quote : c ≠ '\"') (backslash : c ≠ '\\') (printed : 0x20 ≤ c.toNat) :
      IsPiece (.character c) [c]
  | letter {l c : Char} (h : (l, c) ∈ escapeLetters) : IsPiece (.character c) ['\\', l]
  | unit {n : Nat} {q : List Char} (h : IsQuad n q) : IsPiece (.unit n) ('\\' :: 'u' :: q)

/-- The texts of a row of pieces. -/
inductive IsContent : List Piece → List Char → Prop where
  | nil : IsContent [] []
  | cons {p : Piece} {ps : List Piece} {s t : List Char} (piece : IsPiece p s)
      (rest : IsContent ps t) : IsContent (p :: ps) (s ++ t)

/-- The number of the first half of a surrogate pair. -/
def IsHighHalf (n : Nat) : Prop := 0xD800 ≤ n ∧ n ≤ 0xDBFF

/-- The number of the second half of a surrogate pair. -/
def IsLowHalf (n : Nat) : Prop := 0xDC00 ≤ n ∧ n ≤ 0xDFFF

instance (n : Nat) : Decidable (IsHighHalf n) := inferInstanceAs (Decidable (_ ∧ _))

instance (n : Nat) : Decidable (IsLowHalf n) := inferInstanceAs (Decidable (_ ∧ _))

/-- The characters that pieces stand for: a number is that of a character, or it is the
first half of a surrogate pair and the next piece is the second half. -/
def content? : List Piece → Option (List Char)
  | [] => some []
  | .character c :: ps => (content? ps).map (c :: ·)
  | .unit n :: ps =>
    if n.isValidChar then (content? ps).map (Char.ofNat n :: ·)
    else
      match ps with
      | .unit m :: ps' =>
        if IsHighHalf n ∧ IsLowHalf m then
          (content? ps').map (Char.ofNat (0x10000 + (n - 0xD800) * 0x400 + (m - 0xDC00)) :: ·)
        else none
      | _ => none

/-! ## Numbers -/

/-- At least one digit, and nothing else. -/
structure IsDigits (s : List Char) : Prop where
  nonempty : s ≠ []
  digit : ∀ c ∈ s, c.isDigit = true

/-- The digits in front of the point: a zero, or digits that start with another one. -/
inductive IsWhole : List Char → Prop where
  | zero : IsWhole ['0']
  | digits {d : Char} {ds : List Char} (nonzero : d ≠ '0') (digit : d.isDigit = true)
      (rest : ∀ c ∈ ds, c.isDigit = true) : IsWhole (d :: ds)

/-- The fraction, if there is one. -/
inductive IsFraction : List Char → Prop where
  | absent : IsFraction []
  | present {ds : List Char} (digits : IsDigits ds) : IsFraction ('.' :: ds)

/-- The exponent, if there is one. -/
inductive IsExponent : List Char → Prop where
  | absent : IsExponent []
  | present {e : Char} {sign ds : List Char} (letter : e = 'e' ∨ e = 'E')
      (signed : sign = [] ∨ sign = ['+'] ∨ sign = ['-']) (digits : IsDigits ds) :
      IsExponent (e :: (sign ++ ds))

/-- A number without a sign. -/
inductive IsUnsigned : List Char → Prop where
  | parts {w f e : List Char} (whole : IsWhole w) (fraction : IsFraction f)
      (exponent : IsExponent e) : IsUnsigned (w ++ (f ++ e))

/-- A number. -/
inductive IsNumber : List Char → Prop where
  | positive {s : List Char} (h : IsUnsigned s) : IsNumber s
  | negative {s : List Char} (h : IsUnsigned s) : IsNumber ('-' :: s)

/-! ## Values -/

/-- A value of the data format. -/
inductive Value where
  | null
  | boolean (value : Bool)
  | number (literal : List Char)
  | text (content : List Piece)
  | list (items : List Value)
  | object (members : List (List Piece × Value))

/-- Nothing but the four blanks that may stand between tokens. -/
def IsBlank (s : List Char) : Prop :=
  ∀ c ∈ s, c = ' ' ∨ c = '\t' ∨ c = '\n' ∨ c = '\r'

/-- What stands in front of an item or a member: the first one in a row may have blanks
there, and each further one has a comma among them. -/
inductive IsLead : Bool → List Char → Prop where
  | first {a : List Char} (blank : IsBlank a) : IsLead true a
  | further {a b : List Char} (before : IsBlank a) (after : IsBlank b) :
      IsLead false (a ++ ',' :: b)

mutual

/-- The texts of a value. -/
inductive IsValue : Value → List Char → Prop where
  | null : IsValue .null ['n', 'u', 'l', 'l']
  | yes : IsValue (.boolean true) ['t', 'r', 'u', 'e']
  | no : IsValue (.boolean false) ['f', 'a', 'l', 's', 'e']
  | number {s : List Char} (h : IsNumber s) : IsValue (.number s) s
  | text {ps : List Piece} {s : List Char} (h : IsContent ps s) :
      IsValue (.text ps) ('\"' :: (s ++ ['\"']))
  | list {vs : List Value} {s : List Char} (h : IsItems true vs s) :
      IsValue (.list vs) ('[' :: s)
  | object {ms : List (List Piece × Value)} {s : List Char} (h : IsMembers true ms s) :
      IsValue (.object ms) ('\x7b' :: s)

/-- The texts of the items of a list up to its closing bracket, from the first one on or
from a further one on. -/
inductive IsItems : Bool → List Value → List Char → Prop where
  | close {first : Bool} {b : List Char} (blank : IsBlank b) : IsItems first [] (b ++ [']'])
  | item {first : Bool} {v : Value} {vs : List Value} {a s t : List Char} (lead : IsLead first a)
      (value : IsValue v s) (rest : IsItems false vs t) : IsItems first (v :: vs) (a ++ (s ++ t))

/-- The texts of the members of an object up to its closing brace, from the first one on
or from a further one on. -/
inductive IsMembers : Bool → List (List Piece × Value) → List Char → Prop where
  | close {first : Bool} {b : List Char} (blank : IsBlank b) :
      IsMembers first [] (b ++ ['\x7d'])
  | member {first : Bool} {k : List Piece} {v : Value} {ms : List (List Piece × Value)}
      {a key b c s t : List Char} (lead : IsLead first a) (content : IsContent k key)
      (before : IsBlank b) (after : IsBlank c) (value : IsValue v s) (rest : IsMembers false ms t) :
      IsMembers first ((k, v) :: ms)
        (a ++ ('\"' :: (key ++ '\"' :: (b ++ ':' :: (c ++ (s ++ t))))))

end

/-- Two halves of a surrogate pair make up a character, and one of them none. -/
example : content? [.unit 0xD83D, .unit 0xDE00] = some ['😀'] ∧
    content? [.unit 0xD83D, .character 'x'] = none := by decide

end Json
end FluentBuilders
