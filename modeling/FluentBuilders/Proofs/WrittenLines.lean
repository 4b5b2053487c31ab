import FluentBuilders.Proofs.Lines
import FluentBuilders.Proofs.WrittenText
import FluentBuilders.Workspace

/-! # Reading written elements

An element that is written and read again is the same element, and so is every
list of elements written one to a line.  A written element holds no line feed
and neither starts nor ends with a blank, so that cutting a text into lines and
trimming each of them gives back what was written. -/
namespace FluentBuilders
open Json

/-! ## Members -/

theorem Field.ofKey?_key (f : Field) : Field.ofKey? f.key.toList = some f := by
  cases f <;> decide

/-- The members of an object when there is another one. -/
theorem readMembers_of_more {first : Bool} {d d' : Draft} {s s₁ s₂ s₃ : Input}
    {key : List Char} (hn : nextMember first s = .ok (true, s₁))
    (hk : readKey s₁ = .ok (key, s₂)) (hm : readMember d key s₂ = .ok (d', s₃)) :
    readMembers first d s = readMembers false d' s₃ := by
  rw [readMembers]
  split
  · next he => rw [hn] at he; simp at he
  · next he => rw [hn] at he; simp at he
  · next r he =>
    obtain rfl : s₁ = r := by rw [hn] at he; simpa using he
    split
    · next he => rw [hk] at he; simp at he
    · next key' r he =>
      obtain ⟨rfl, rfl⟩ : key = key' ∧ s₂ = r := by rw [hk] at he; simpa using he
      split
      · next he => rw [hm] at he; simp at he
      · next d₁ r he =>
        obtain ⟨rfl, rfl⟩ : d' = d₁ ∧ s₃ = r := by rw [hm] at he; simpa using he
        rfl

/-- The members of an object at its end. -/
theorem readMembers_of_end {first : Bool} {d : Draft} {s rest : Input}
    (hn : nextMember first s = .ok (false, rest)) : readMembers first d s = .ok (d, rest) := by
  rw [readMembers]
  split
  · next he => rw [hn] at he; simp at he
  · next s he =>
    obtain rfl : rest = s := by rw [hn] at he; simpa using he
    rfl
  · next he => rw [hn] at he; simp at he

theorem nextMember_separator (first : Bool) (s : Input) :
    nextMember first (separator first ++ '\"' :: s) = .ok (true, '\"' :: s) := by
  cases first <;> rfl

/-- **One member is read**: when reading the value undoes writing it, reading the
members of an object goes on after the member, with the field in the draft. -/
theorem readMembers_member {d d' : Draft} {f : Field} {value : List Char}
    (hd : d.has f = false) (hv : ∀ rest, d.read f (value ++ rest) = .ok (d', rest))
    (first : Bool) (rest : Input) :
    readMembers first d (separator first ++ (member f.key value ++ rest)) =
      readMembers false d' rest := by
  have hs : member f.key value ++ rest =
      '\"' :: (f.key.toList.flatMap encodeChar ++ '\"' :: ':' :: (value ++ rest)) := by
    rw [member, List.append_assoc, encode_append]
    rfl
  have hk : readKey ('\"' :: (f.key.toList.flatMap encodeChar ++ '\"' :: ':' :: (value ++ rest))) =
      .ok (f.key.toList, ':' :: (value ++ rest)) := by
    rw [readKey, if_pos rfl]
    exact readChars_encode _ _
  have hm : readMember d f.key.toList (':' :: (value ++ rest)) = .ok (d', rest) := by
    have hc : colon (':' :: (value ++ rest)) = .ok (value ++ rest) := rfl
    rw [readMember, Field.ofKey?_key]
    dsimp only
    rw [hd, hc]
    exact hv rest
  rw [hs]
  exact readMembers_of_more (nextMember_separator first _) hk hm

theorem readMembers_end (first : Bool) (d : Draft) (rest : Input) :
    readMembers first d ('\x7d' :: rest) = .ok (d, rest) :=
  readMembers_of_end rfl

/-! ## Elements -/

namespace Element

/-- The member of the location, with the comma in front of it, if there is one. -/
def placeMember (e : Element) : List Char :=
  e.location.toList.flatMap fun l => separator false ++ member "location" (Json.encode l.toList)

theorem encode_eq (e : Element) :
    e.encode = '\x7b' :: (separator true ++ (member "owner" (Json.encode e.owner.toList) ++
      (separator false ++ (member "name" (Json.encode e.name.toList) ++
        (separator false ++ (member "parameters" (texts e.parameters) ++
          (e.placeMember ++ ['\x7d']))))))) := by
  simp only [encode, object, List.cons_append, intercalate_cons, List.nil_append,
    List.flatMap_cons, List.flatMap_map, List.append_assoc, placeMember, separator]

theorem readMembers_placeMember (e : Element) (d : Draft) (hd : d.location = none) :
    ∃ l, l.getD none = e.location ∧ readMembers false d (e.placeMember ++ ['\x7d']) =
      .ok ({ d with location := l }, []) := by
  cases hl : e.location with
  | none =>
    refine ⟨none, rfl, ?_⟩
    rw [placeMember, hl, Option.toList_none, List.flatMap_nil, List.nil_append, readMembers_end,
      ← hd]
  | some l =>
    refine ⟨some (some l), rfl, ?_⟩
    rw [placeMember, hl, Option.toList_some, List.flatMap_singleton, List.append_assoc]
    refine (readMembers_member (f := .location) (by rw [Draft.has, hd]; rfl) ?_ false _).trans
      (readMembers_end _ _ _)
    intro rest
    rw [Draft.read, readOptionalText_encode]
    rfl

/-- **A written element is read back**, an empty location as an empty one and no
location as none. -/
theorem readElement_encode (e : Element) : readElement e.encode = .ok e := by
  have howner : ∀ rest, Draft.empty.read .owner (Json.encode e.owner.toList ++ rest) =
      .ok (⟨some e.owner, none, none, none⟩, rest) := by
    intro rest
    rw [Draft.read, readText_encode]
    rfl
  have hname : ∀ rest, Draft.read ⟨some e.owner, none, none, none⟩ .name
      (Json.encode e.name.toList ++ rest) =
      .ok (⟨some e.owner, some e.name, none, none⟩, rest) := by
    intro rest
    rw [Draft.read, readText_encode]
    rfl
  have hparameters : ∀ rest, Draft.read ⟨some e.owner, some e.name, none, none⟩ .parameters
      (texts e.parameters ++ rest) =
      .ok (⟨some e.owner, some e.name, some e.parameters, none⟩, rest) := by
    intro rest
    rw [Draft.read, readTexts_texts]
    rfl
  obtain ⟨l, hl, hplace⟩ := readMembers_placeMember e
    ⟨some e.owner, some e.name, some e.parameters, none⟩ rfl
  have hs : ∀ s, skipSpace ('\x7b' :: s) = '\x7b' :: s := fun _ => rfl
  rw [encode_eq, readElement, hs]
  dsimp only
  rw [if_neg (by decide), if_pos rfl, readObject]
  -- three members are always there; the end or the location comes after them
  have hmembers := (readMembers_member (f := .owner) rfl howner true _).trans
    ((readMembers_member (f := .name) rfl hname false _).trans
      ((readMembers_member (f := .parameters) rfl hparameters false _).trans hplace))
  change finish ((readMembers true .empty (separator true ++
    (member Field.owner.key _ ++ (separator false ++ (member Field.name.key _ ++
      (separator false ++ (member Field.parameters.key _ ++ _))))))).bind _) = _
  rw [hmembers]
  cases e
  subst hl
  rfl

theorem isPrinted_member (key : String) {value : List Char} (h : IsPrinted value) :
    IsPrinted (member key value) :=
  isPrinted_append.mpr ⟨isPrinted_encode _, isPrinted_cons.mpr ⟨by decide, h⟩⟩

theorem isPrinted_encode (e : Element) : IsPrinted e.encode := by
  refine isPrinted_cons.mpr ⟨by decide, isPrinted_append.mpr ⟨?_, ?_⟩⟩
  · apply isPrinted_intercalate
    intro p hp
    simp only [List.cons_append, List.nil_append, List.mem_cons, List.mem_map] at hp
    rcases hp with rfl | rfl | rfl | ⟨l, _, rfl⟩
    · exact isPrinted_member _ (Json.isPrinted_encode _)
    · exact isPrinted_member _ (Json.isPrinted_encode _)
    · exact isPrinted_member _ (isPrinted_texts _)
    · exact isPrinted_member _ (Json.isPrinted_encode _)
  · exact isPrinted_cons.mpr ⟨by decide, List.forall_mem_nil _⟩

/-- An element stands between two braces. -/
theorem encode_braces (e : Element) :
    ∃ m, e.encode = '\x7b' :: (m ++ ['\x7d']) := ⟨_, rfl⟩

end Element

/-! ## Lines -/

namespace Text

/-- Trimming leaves what stands between two characters that are no blanks. -/
theorem trim_between {c d : Char} (hc : isBlank c = false) (hd : isBlank d = false)
    (m : List Char) {b : List Char} (hb : ∀ x ∈ b, isBlank x = true) :
    trim (c :: (m ++ [d]) ++ b) = c :: (m ++ [d]) := by
  have hstart : ∀ {x : Char} (s : List Char), isBlank x = false → trimStart (x :: s) = x :: s := by
    intro x s hx
    rw [trimStart, List.dropWhile_cons_of_neg (by rw [hx]; decide)]
  have hback := trim_append (List.forall_mem_nil _) hb (c :: (m ++ [d]))
  have hrev : (c :: (m ++ [d])).reverse = d :: (m.reverse ++ [c]) := by
    simp only [List.reverse_cons, List.reverse_append, List.reverse_nil, List.cons_append,
      List.nil_append]
  rw [List.nil_append] at hback
  rw [hback, trim, hstart _ hc, hrev, hstart _ hd, ← hrev, List.reverse_reverse]

theorem trim_blanks {b : List Char} (hb : ∀ x ∈ b, isBlank x = true) : trim b = [] := by
  rw [trim, trimStart_blanks hb]
  rfl

end Text

/-- How the lines of a text end. -/
inductive LineEnd where
  | lineFeed
  | carriageReturnLineFeed
deriving DecidableEq, Repr

namespace LineEnd

/-- What stands in front of the line feed. -/
def back : LineEnd → List Char
  | .lineFeed => []
  | .carriageReturnLineFeed => ['\r']

/-- The characters of a line end. -/
def text (ending : LineEnd) : String :=
  String.ofList (ending.back ++ ['\n'])

theorem isBlank_of_mem_back {ending : LineEnd} {c : Char} (h : c ∈ ending.back) :
    Text.isBlank c = true := by
  cases ending with
  | lineFeed => simp [back] at h
  | carriageReturnLineFeed =>
    obtain rfl := List.mem_singleton.mp h
    decide

theorem lineFeed_not_mem_back (ending : LineEnd) : '\n' ∉ ending.back := by
  cases ending <;> decide

end LineEnd

namespace Ndjson

/-- **Elements written one to a line**, with or without a line end behind the
last of them. -/
def document (ending : LineEnd) (closed : Bool) (elements : List Element) : String :=
  ending.text.intercalate (elements.map Element.written) ++ if closed then ending.text else ""

/-- A written element is the element of its line, whatever ends the line. -/
theorem readLine_encode (e : Element) {b : List Char} (hb : ∀ x ∈ b, Text.isBlank x = true) :
    readLine (e.encode ++ b) = .ok (some e) := by
  obtain ⟨m, hm⟩ := e.encode_braces
  have hr := e.readElement_encode
  rw [hm] at hr ⊢
  rw [readLine, Text.trim_between (by decide) (by decide) m hb]
  simp only [Element.ofText, hr]
  rfl

theorem readLine_blank {b : List Char} (hb : ∀ x ∈ b, Text.isBlank x = true) :
    readLine b = .ok none := by
  rw [readLine, Text.trim_blanks hb]

/-- One line of a text is read, and then the lines after it. -/
theorem readLines_line (ending : LineEnd) (e : Element) (number : Nat) (rest : List Char) :
    readLines number (lines (e.encode ++ (ending.back ++ ['\n'] ++ rest))) =
      (readLines (number + 1) (lines rest)).map (e :: ·) := by
  -- the line feed of the ending is the first one, so it is where the line is cut
  have hn : '\n' ∉ e.encode ++ ending.back := by
    intro h
    rcases List.mem_append.mp h with h | h
    · exact e.isPrinted_encode.not_mem_lineFeed h
    · exact ending.lineFeed_not_mem_back h
  have hs : e.encode ++ (ending.back ++ ['\n'] ++ rest) =
      (e.encode ++ ending.back) ++ '\n' :: rest := by
    simp only [List.append_assoc, List.singleton_append]
  rw [hs, lines_line hn, readLines, readLine_encode e fun _ h => LineEnd.isBlank_of_mem_back h]

/-- What may stand behind the last line adds no element. -/
theorem readLines_closing (ending : LineEnd) (closed : Bool) (number : Nat) :
    readLines number (lines (if closed then ending.back ++ ['\n'] else [])) = .ok [] := by
  cases closed with
  | false => rfl
  | true =>
    rw [if_pos rfl, lines_line ending.lineFeed_not_mem_back, readLines,
      readLine_blank fun _ h => LineEnd.isBlank_of_mem_back h]
    rfl

/-- The lines of written elements give the elements, from any line number on. -/
theorem readLines_written (ending : LineEnd) (closed : Bool) (es : List Element)
    (number : Nat) :
    readLines number (lines (List.intercalate (ending.back ++ ['\n']) (es.map Element.encode) ++
      if closed then ending.back ++ ['\n'] else [])) = .ok es := by
  induction es generalizing number with
  | nil => exact readLines_closing ending closed number
  | cons e es ih =>
    cases es with
    | nil =>
      -- the last line, which is the only one that may lack its end
      rw [List.map_cons, List.map_nil, List.intercalate_singleton]
      cases closed with
      | false =>
        have hn := e.isPrinted_encode.not_mem_lineFeed
        have hr := readLine_encode e (b := []) (List.forall_mem_nil _)
        rw [List.append_nil] at hr
        rw [if_neg (by decide), List.append_nil, lines_of_not_mem hn, readLines, hr]
        rfl
      | true =>
        have hr := readLines_line ending e number []
        rw [List.append_nil] at hr
        rw [if_pos rfl, hr]
        rfl
    | cons e' es =>
      rw [List.map_cons, List.map_cons, List.intercalate_cons_cons, List.append_assoc,
        List.append_assoc, readLines_line, ← List.map_cons, ih]
      rfl

theorem toList_document (ending : LineEnd) (closed : Bool) (es : List Element) :
    (document ending closed es).toList =
      List.intercalate (ending.back ++ ['\n']) (es.map Element.encode) ++
        if closed then ending.back ++ ['\n'] else [] := by
  have hm : (es.map Element.written).map String.toList = es.map Element.encode := by
    rw [List.map_map]
    exact List.map_congr_left fun e _ => String.toList_ofList
  rw [document, String.toList_append, String.toList_intercalate, hm]
  cases closed <;> simp only [LineEnd.text, String.toList_ofList, if_true, if_false,
    Bool.false_eq_true, String.toList_empty]

/-- **Reading undoes writing.**  Elements written one to a line are read back in
order, each as it was, whatever characters their texts hold, whichever of the two
line ends is used and whether or not one closes the last line; from a file whose
bytes are such a text they are read back as well. -/
theorem read_document (ending : LineEnd) (closed : Bool) (es : List Element) :
    read (document ending closed es) = .ok es ∧
      ∀ (files : FileSystem) (path : String),
        files.readFile? path = some (document ending closed es).toByteArray →
          Workspace.readElements files path = .ok es := by
  have hread : read (document ending closed es) = .ok es := by
    rw [read, toList_document]
    exact readLines_written ending closed es 1
  refine ⟨hread, fun files path hfile => ?_⟩
  have hutf : String.fromUTF8? (document ending closed es).toByteArray =
      some (document ending closed es) := by
    rw [String.fromUTF8?, dif_pos (String.isValidUTF8 _)]
    rfl
  rw [Workspace.readElements, hfile]
  simp only [readBytes, hutf, hread]
  rfl

/-- Two elements in a file at the top, one of them with an empty location and a
line feed in its name. -/
theorem read_document_two_elements :
    let elements : List Element :=
      [⟨"a.B", "set\n\r\"X\\", ["Map<K, \u2028>", ""], some ""⟩, ⟨"", "\x00", [], none⟩]
    let content := (document .carriageReturnLineFeed true elements).toByteArray
    let files : FileSystem := ⟨.directory [("in.ndjson", .file content)], []⟩
    files.readFile? "in.ndjson" = some content ∧
      Workspace.readElements files "in.ndjson" = .ok elements := by
  intro elements content files
  have hfile : files.readFile? "in.ndjson" = some content := by
    have hcheck : FilePath.check "in.ndjson" = .ok () := by rfl
    have hway : FilePath.components "in.ndjson" = [.name "in.ndjson"] := by decide
    have hslash : FilePath.endsInSeparator "in.ndjson" = false := by decide
    simp only [FileSystem.readFile?, FileSystem.approach, hcheck, hway]
    simp only [Except.map, hslash]
    rfl
  exact ⟨hfile, (read_document .carriageReturnLineFeed true elements).2 files "in.ndjson" hfile⟩

end Ndjson
end FluentBuilders
