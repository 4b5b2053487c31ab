import FluentBuilders.Proofs.ElementValues
import FluentBuilders.Proofs.Json.Unambiguous
import Mathlib.Data.List.Forall2

/-! # The language of lines

A line is an element when what is left of it after trimming is one value that denotes the
element (`readLine_some_iff`), and a text is read when each of its lines is blank or an
element (`read_ok_iff`).  Because a text spells at most one value, a line that is written
with its members in another order, or with other unknown members, is read alike. -/
namespace FluentBuilders
open Json

/-! ## Members in another order -/

/-- What members denote depends on the values of each field, and not on the order of those
of one field, of which there is at most one. -/
theorem DenoteElement.congr {ms ms' : List (List Piece × Value)} {e : Element}
    (he : DenoteElement ms e) (hkeys : ∀ m ∈ ms', content? m.1 ≠ none)
    (hvalues : ∀ f : Field, (valuesOf f.key ms).Perm (valuesOf f.key ms')) :
    DenoteElement ms' e := by
  have hone : ∀ (f : Field) {v}, valuesOf f.key ms = [v] → valuesOf f.key ms' = [v] := by
    intro f v hv
    have hperm := hvalues f
    rw [hv] at hperm
    exact List.perm_singleton.mp hperm.symm
  have hnone : ∀ f : Field, valuesOf f.key ms = [] → valuesOf f.key ms' = [] := by
    intro f hv
    have hperm := hvalues f
    rw [hv] at hperm
    exact List.perm_nil.mp hperm.symm
  obtain ⟨_, ⟨o, ho, howner⟩, ⟨n, hn, hname⟩, hparameters, hlocation⟩ := he
  refine ⟨hkeys, ⟨o, hone .owner ho, howner⟩, ⟨n, hone .name hn, hname⟩, ?_, ?_⟩
  · rcases hparameters with ⟨hv, hp⟩ | ⟨p, hv, hp⟩
    · exact .inl ⟨hnone .parameters hv, hp⟩
    · exact .inr ⟨p, hone .parameters hv, hp⟩
  · rcases hlocation with ⟨hv, hl⟩ | ⟨l, hv, hl⟩
    · exact .inl ⟨hnone .location hv, hl⟩
    · exact .inr ⟨l, hone .location hv, hl⟩

theorem DenoteElement.perm {ms ms' : List (List Piece × Value)} (h : ms.Perm ms') {e : Element}
    (he : DenoteElement ms e) : DenoteElement ms' e :=
  he.congr (fun m hm => he.keys m (h.mem_iff.mpr hm)) fun _ => (h.filter _).map _

/-- A key that is the key of no field. -/
def IsUnknown (k : List Piece) : Prop :=
  ∃ key, content? k = some key ∧ ∀ f : Field, key ≠ f.key.toList

theorem valuesOf_insert {k : List Piece} (hk : IsUnknown k) (v : Value) (f : Field)
    (before after : List (List Piece × Value)) :
    valuesOf f.key (before ++ (k, v) :: after) = valuesOf f.key (before ++ after) := by
  obtain ⟨key, hkey, hne⟩ := hk
  have hcons : valuesOf f.key ((k, v) :: after) = valuesOf f.key after := by
    apply valuesOf_cons_of_ne
    rw [hkey]
    intro h
    injection h with h
    exact hne f h
  simp only [valuesOf, List.filter_append, List.map_append] at hcons ⊢
  rw [hcons]

theorem denoteElement_insert_iff {k : List Piece} (hk : IsUnknown k) (v : Value)
    (before after : List (List Piece × Value)) (e : Element) :
    DenoteElement (before ++ (k, v) :: after) e ↔ DenoteElement (before ++ after) e := by
  have hvalues := fun f => valuesOf_insert hk v f before after
  have hkeys : (∀ m ∈ before ++ (k, v) :: after, content? m.1 ≠ none) ↔
      ∀ m ∈ before ++ after, content? m.1 ≠ none := by
    obtain ⟨key, hkey, _⟩ := hk
    have hsome : some key ≠ none := by simp
    simp only [List.forall_mem_append, List.forall_mem_cons, hkey, hsome, ne_eq,
      not_false_eq_true, true_and]
  constructor
  · intro h
    exact h.congr (hkeys.mp h.keys) fun f => hvalues f ▸ List.Perm.refl _
  · intro h
    exact h.congr (hkeys.mpr h.keys) fun f => hvalues f ▸ List.Perm.refl _

/-- Members that differ in their order, and in members with unknown keys that have been put
in or taken out anywhere. -/
inductive Rearranged : List (List Piece × Value) → List (List Piece × Value) → Prop where
  | permuted {ms ms' : List (List Piece × Value)} (h : ms.Perm ms') : Rearranged ms ms'
  | inserted {k : List Piece} {v : Value} {before after : List (List Piece × Value)}
      (h : IsUnknown k) : Rearranged (before ++ after) (before ++ (k, v) :: after)
  | removed {k : List Piece} {v : Value} {before after : List (List Piece × Value)}
      (h : IsUnknown k) : Rearranged (before ++ (k, v) :: after) (before ++ after)
  | trans {ms ms₁ ms' : List (List Piece × Value)} (h : Rearranged ms ms₁)
      (h' : Rearranged ms₁ ms') : Rearranged ms ms'

theorem Rearranged.denoteElement_iff {ms ms' : List (List Piece × Value)}
    (h : Rearranged ms ms') (e : Element) : DenoteElement ms e ↔ DenoteElement ms' e := by
  induction h with
  | permuted h => exact ⟨.perm h, .perm h.symm⟩
  | inserted h => exact (denoteElement_insert_iff h _ _ _ e).symm
  | removed h => exact denoteElement_insert_iff h _ _ _ e
  | trans _ _ ih ih' => exact ih.trans ih'

/-! ## Trimmed lines -/

namespace Text

/-- What trimming leaves neither starts nor ends with a blank. -/
theorem trim_head {s r : List Char} {c : Char} (h : trim s = c :: r) : isBlank c = false := by
  obtain ⟨b, _, hs⟩ := exists_trim_append s
  rw [h, List.cons_append] at hs
  exact trimStart_head hs

theorem trim_last {s r : List Char} {c : Char} (h : trim s = r ++ [c]) : isBlank c = false := by
  have hr := congrArg List.reverse h
  rw [trim, List.reverse_reverse, List.reverse_append, List.reverse_singleton] at hr
  exact trimStart_head hr

end Text

theorem isBlank_of_isSpace {c : Char} (h : c = ' ' ∨ c = '\t' ∨ c = '\n' ∨ c = '\r') :
    Text.isBlank c = true := by
  rcases h with rfl | rfl | rfl | rfl <;> decide

/-- Trimming leaves no blanks around what it leaves. -/
theorem trim_eq_middle {s a t b : List Char} (ha : IsBlank a) (hb : IsBlank b)
    (h : Text.trim s = a ++ (t ++ b)) : Text.trim s = t := by
  have hfront : a = [] := by
    rcases a with _ | ⟨c, a⟩
    · rfl
    · have hc := Text.trim_head h
      rw [isBlank_of_isSpace (ha c List.mem_cons_self)] at hc
      simp at hc
  have hback : b = [] := by
    rcases List.eq_nil_or_concat b with rfl | ⟨b', c, rfl⟩
    · rfl
    · rw [List.concat_eq_append] at h hb
      rw [← List.append_assoc, ← List.append_assoc] at h
      have hc := Text.trim_last h
      rw [isBlank_of_isSpace (hb c (by simp))] at hc
      simp at hc
  rw [h, hfront, hback, List.nil_append, List.append_nil]

namespace Ndjson

/-! ## Lines -/

theorem readLine_none_iff {line : List Char} : readLine line = .ok none ↔ Text.trim line = [] := by
  unfold readLine
  split
  · next h => simp [h]
  · next c rest h =>
    rw [h]
    cases Element.ofText (c :: rest) <;> simp [Except.map]

/-- **A line is an element** when what is left of it after trimming is a value that denotes
the element. -/
theorem readLine_some_iff {line : List Char} {e : Element} :
    readLine line = .ok (some e) ↔ ∃ v, IsValue v (Text.trim line) ∧ Denotes v e := by
  have hread : readLine line = .ok (some e) ↔ readElement (Text.trim line) = .ok e := by
    unfold readLine
    split
    · next h =>
      rw [h]
      simp [readElement, skipSpace]
    · next c rest h =>
      rw [h, Element.ofText]
      cases readElement (c :: rest) <;> simp [Except.map, Except.mapError]
  rw [hread, readElement_ok_iff]
  constructor
  · rintro ⟨a, v, t, b, ha, ht, hb, hv, h⟩
    rw [trim_eq_middle ha hb h]
    exact ⟨v, ht, hv⟩
  · rintro ⟨v, ht, hv⟩
    exact ⟨[], v, _, [], isBlank_nil, ht, isBlank_nil, hv, by simp⟩

/-- The lines that are not blank. -/
def nonblankLines (text : String) : List (List Char) :=
  (lines text.toList).filter fun line => Text.trim line ≠ []

theorem readLines_ok_iff {number : Nat} {ls : List (List Char)} {es : List Element} :
    readLines number ls = .ok es ↔ List.Forall₂ (fun line e => readLine line = .ok (some e))
      (ls.filter fun line => Text.trim line ≠ []) es := by
  induction ls generalizing number es with
  | nil =>
    rw [readLines, List.filter_nil, List.forall₂_nil_left_iff]
    simp [eq_comm]
  | cons line ls ih =>
    by_cases hblank : Text.trim line = []
    · rw [readLines, readLine_none_iff.mpr hblank, List.filter_cons_of_neg (by simpa using hblank)]
      exact ih
    · rw [readLines, List.filter_cons_of_pos (by simpa using hblank), List.forall₂_cons_left_iff]
      cases hline : readLine line with
      | error complaint => simp
      | ok read =>
        cases read with
        | none => exact absurd (readLine_none_iff.mp hline) hblank
        | some e =>
          constructor
          · intro h
            obtain ⟨es', hrest, rfl⟩ := image_ok h
            exact ⟨e, es', rfl, ih.mp hrest, rfl⟩
          · rintro ⟨e', es', he, hrest, rfl⟩
            injection he with he
            injection he with he
            subst he
            dsimp only
            rw [ih.mpr hrest]
            rfl

/-- **A text is read** when each of its lines is blank or an element. -/
theorem read_ok_iff {text : String} {es : List Element} :
    read text = .ok es ↔ List.Forall₂ (fun line e => ∃ v, IsValue v (Text.trim line) ∧ Denotes v e)
      (nonblankLines text) es := by
  simp only [read, readLines_ok_iff, readLine_some_iff, nonblankLines]

/-- A text of one line is read when the line is an element. -/
theorem read_singleton_iff {line : String} (hline : '\n' ∉ line.toList)
    (hblank : Text.trim line.toList ≠ []) {es : List Element} :
    read line = .ok es ↔ ∃ v e, IsValue v (Text.trim line.toList) ∧ Denotes v e ∧ es = [e] := by
  have hlines : nonblankLines line = [line.toList] := by
    rw [nonblankLines, lines_of_not_mem hline, List.filter_cons_of_pos (by simpa using hblank),
      List.filter_nil]
  rw [read_ok_iff, hlines]
  constructor
  · intro h
    cases h with
    | cons h hrest =>
      cases hrest
      obtain ⟨v, hv, he⟩ := h
      exact ⟨v, _, hv, he, rfl⟩
  · rintro ⟨v, e, hv, he, rfl⟩
    exact .cons ⟨v, hv, he⟩ .nil

/-- **The language of a line.**  A line that is not blank is read when what trimming leaves
of it is one value that denotes an element, and then it is read as that element.  Two lines
of objects whose members differ in their order, or in members with unknown keys, are read
alike: as the same element, or neither of them. -/
theorem read_line_iff {line : String} (hline : '\n' ∉ line.toList)
    (hblank : Text.trim line.toList ≠ []) :
    (∀ es, read line = .ok es ↔
      ∃ v e, IsValue v (Text.trim line.toList) ∧ Denotes v e ∧ es = [e]) ∧
    ∀ (line' : String) (ms ms' : List (List Piece × Value)), '\n' ∉ line'.toList →
      IsValue (.object ms) (Text.trim line.toList) →
      IsValue (.object ms') (Text.trim line'.toList) → Rearranged ms ms' →
      ∀ es, read line = .ok es ↔ read line' = .ok es := by
  refine ⟨fun es => read_singleton_iff hline hblank, ?_⟩
  intro line' ms ms' hline' hms hms' hrearranged es
  have hblank' : Text.trim line'.toList ≠ [] := by
    obtain ⟨c, s, hs, _⟩ := hms'.exists_cons
    rw [hs]
    exact List.cons_ne_nil _ _
  -- the value of each line is settled by its text
  have honly : ∀ {s : List Char} {ms : List (List Piece × Value)}, IsValue (.object ms) s →
      ((∃ v e, IsValue v s ∧ Denotes v e ∧ es = [e]) ↔ ∃ e, DenoteElement ms e ∧ es = [e]) := by
    intro s ms hms
    constructor
    · rintro ⟨v, e, hv, he, hes⟩
      obtain ⟨rfl, _⟩ := hv.unique hms rfl stops_nil stops_nil
      cases he with
      | object he => exact ⟨e, he, hes⟩
    · rintro ⟨e, he, hes⟩
      exact ⟨_, e, hms, .object he, hes⟩
  rw [read_singleton_iff hline hblank, read_singleton_iff hline' hblank', honly hms, honly hms']
  simp only [hrearranged.denoteElement_iff]

/-- A line behind a no-break space: its keys are out of order, one of them has an escape, and
an unknown member holds half of a surrogate pair.  Without the unknown member, and with the
owner in front, it is read as the same element. -/
theorem read_line_iff_unknown_member :
    let line := "\u00a0\x7b\"name\":\"set\",\"x\":[\"\\ud800\"],\"\\u006fwner\":\"a.B\"\x7d"
    let line' := "\x7b\"\\u006fwner\":\"a.B\",\"name\":\"set\"\x7d"
    '\n' ∉ line.toList ∧ Text.trim line.toList ≠ [] ∧
      read line = .ok [⟨"a.B", "set", [], none⟩] ∧ read line' = .ok [⟨"a.B", "set", [], none⟩] := by
  intro line line'
  have hline : '\n' ∉ line.toList := by decide
  have hline' : '\n' ∉ line'.toList := by decide
  have hblank : Text.trim line.toList ≠ [] := by decide
  have hname : IsContent ("name".toList.map .character) "name".toList :=
    isContent_plain (by decide)
  have hset : IsContent ("set".toList.map .character) "set".toList := isContent_plain (by decide)
  have hx : IsContent ("x".toList.map .character) "x".toList := isContent_plain (by decide)
  have ho : IsQuad 0x6F ['0', '0', '6', 'f'] :=
    .digits (i := 0) (j := 0) (k := 6) (l := 15) (by decide) (by decide) (by decide) (by decide)
  have hhalf : IsQuad 0xD800 ['d', '8', '0', '0'] :=
    .digits (i := 13) (j := 8) (k := 0) (l := 0) (by decide) (by decide) (by decide) (by decide)
  have hlone : IsContent [.unit 0xD800] "\\ud800".toList := .cons (.unit hhalf) .nil
  have howner : IsContent (.unit 0x6F :: "wner".toList.map .character) "\\u006fwner".toList :=
    .cons (.unit ho) (isContent_plain (by decide))
  have hclass : IsContent ("a.B".toList.map .character) "a.B".toList := isContent_plain (by decide)
  have hvalue := IsValue.object (.member (.first isBlank_nil) hname isBlank_nil isBlank_nil
    (.text hset) (.member (.further isBlank_nil isBlank_nil) hx isBlank_nil isBlank_nil
      (.list (.item (.first isBlank_nil) (.text hlone) (.close isBlank_nil)))
      (.member (.further isBlank_nil isBlank_nil) howner isBlank_nil isBlank_nil (.text hclass)
        (.close isBlank_nil))))
  have hvalue' := IsValue.object (.member (.first isBlank_nil) howner isBlank_nil isBlank_nil
    (.text hclass) (.member (.further isBlank_nil isBlank_nil) hname isBlank_nil isBlank_nil
      (.text hset) (.close isBlank_nil)))
  have hms : IsValue _ (Text.trim line.toList) :=
    Eq.mp (congrArg (IsValue _) (by decide)) hvalue
  have hms' : IsValue _ (Text.trim line'.toList) :=
    Eq.mp (congrArg (IsValue _) (by decide)) hvalue'
  have hunknown : IsUnknown ("x".toList.map .character) :=
    ⟨"x".toList, by decide, fun f => by cases f <;> decide⟩
  obtain ⟨hread, halike⟩ := read_line_iff hline hblank
  have h := (hread [⟨"a.B", "set", [], none⟩]).mpr ⟨_, _, hms, .object ⟨by decide, ⟨_, rfl, rfl⟩,
    ⟨_, rfl, rfl⟩, .inl ⟨rfl, rfl⟩, .inl ⟨rfl, rfl⟩⟩, rfl⟩
  refine ⟨hline, hblank, h, (halike line' _ _ hline' hms hms' ?_ _).mp h⟩
  exact .trans (@Rearranged.removed _ _ [_] _ hunknown) (.permuted (List.Perm.swap _ _ []))

end Ndjson
end FluentBuilders
