import ChartDocs.Proofs.Json.Data
import ChartDocs.Tables

/-!
# Different values are shown differently

A table shows null as the bare word `nil`, a text as it is between quotes, and any other data as
JSON on one line. The quotes are not escaped, but nothing stands after them, and no other data
starts with a quote; so what a table shows can be read back as the tree of the data, which
determines it.
-/

namespace ChartDocs

open Decimal Json

namespace Parameter

variable {p q : Parameter} {v w : Value} {json : Json}

/-- The tree of the value that a table shows by a text. -/
def shownTree? (text : List Char) : Option Json :=
  if text = "nil".toList then some .null
  else if text.head? = some '"' then some (.string (String.ofList text.tail.dropLast))
  else read text

/-- A tree other than null and strings starts with a character of its own. -/
theorem exists_compact_eq_cons (h : json.Legible) (hnull : json ≠ .null)
    (hstring : ∀ text, json ≠ .string text) :
    ∃ c rest, json.compact = c :: rest ∧ c ≠ 'n' ∧ c ≠ '"' := by
  cases h with
  | null => exact absurd rfl hnull
  | string text => exact absurd rfl (hstring text)
  | bool b => cases b <;> exact ⟨_, _, rfl, by decide, by decide⟩
  | number hnumeral =>
    obtain ⟨c, rest, rfl, rfl | hdigit⟩ := hnumeral.head
    · exact ⟨_, _, rfl, by decide, by decide⟩
    · exact ⟨_, _, rfl, ne_of_isDigit hdigit (by decide), ne_of_isDigit hdigit (by decide)⟩
  | @array items _ => cases items <;> exact ⟨_, _, rfl, by decide, by decide⟩
  | @object fields _ => cases fields <;> exact ⟨_, _, rfl, by decide, by decide⟩

/-- A tree that is neither null nor a text is told by its compact text. -/
theorem shownTree?_compact (h : json.Legible) (hnull : json ≠ .null)
    (hstring : ∀ text, json ≠ .string text) : shownTree? json.compact = some json := by
  obtain ⟨c, rest, hcompact, hn, hquote⟩ := exists_compact_eq_cons h hnull hstring
  have hnil : json.compact ≠ "nil".toList := by
    rw [hcompact]
    exact fun heq => hn (List.head_eq_of_cons_eq heq)
  have hhead : json.compact.head? ≠ some '"' := by
    rw [hcompact]
    exact fun heq => hquote (Option.some.inj heq)
  rw [shownTree?, if_neg hnil, if_neg hhead, compact, read_write none h]

/-- A text is told by its quotes. -/
theorem shownTree?_quoted (text : String) :
    shownTree? ('"' :: text.toList ++ ['"']) = some (.string text) := by
  simp [shownTree?]

/-- Data other than null and texts is shown as JSON. -/
theorem display_eq_compact (hvalue : p.value = some v) (hv : v.IsData) (hjson : v.toJson = .ok json)
    (hnull : json ≠ .null) (hstring : ∀ text, json ≠ .string text) : p.display = json.compact := by
  have hinline : v.inlineText = json.compact := by rw [Value.inlineText, hjson]
  rw [← hinline, display, hvalue]
  cases hv with
  | null =>
    cases hjson
    exact absurd rfl hnull
  | string text =>
    cases hjson
    exact absurd rfl (hstring text)
  -- These branches show what JSON shows as well.
  | bool b => cases b <;> rfl
  | int n => rfl
  | @sequence items _ => cases items <;> rfl
  | @mapping entries _ _ => cases entries <;> rfl

/-- What a table shows for data is read back as its tree. -/
theorem shownTree?_display (hvalue : p.value = some v) (hkind : p.kind = some v.kind)
    (hv : v.IsData) (hjson : v.toJson = .ok json) : shownTree? p.display = some json := by
  obtain ⟨tree, htree, hlegible⟩ := Value.isLegible_of_isData hv
  obtain rfl : json = tree := Except.ok.inj (hjson.symm.trans htree)
  have hform := Value.hasForm_of_toJson hv hjson
  cases json with
  | null =>
    obtain rfl : v = .null := hform
    rw [display, hvalue]
    rfl
  | string text =>
    obtain rfl : v = .string text := hform
    rw [display, hvalue, hkind]
    exact shownTree?_quoted text
  | _ =>
    rw [display_eq_compact hvalue hv hjson (by simp) (by simp)]
    exact shownTree?_compact hlegible (by simp) (by simp)

/-- Two parameters with data of their own kinds are shown alike exactly if the data is equal. -/
theorem display_eq_iff (hpvalue : p.value = some v) (hpkind : p.kind = some v.kind)
    (hv : v.IsData) (hqvalue : q.value = some w) (hqkind : q.kind = some w.kind) (hw : w.IsData) :
    p.display = q.display ↔ v = w := by
  obtain ⟨json, hvjson, -⟩ := Value.isLegible_of_isData hv
  obtain ⟨other, hwjson, -⟩ := Value.isLegible_of_isData hw
  constructor
  · intro h
    have hshown := shownTree?_display hpvalue hpkind hv hvjson
    rw [h, shownTree?_display hqvalue hqkind hw hwjson] at hshown
    obtain rfl : other = json := Option.some.inj hshown
    exact Value.eq_of_toJson_eq hv hw hvjson hwjson
  · rintro rfl
    rw [display, display, hpvalue, hqvalue, hpkind, hqkind]

/-- A parameter with a value and its kind. -/
def holding (name : String) (v : Value) : Parameter :=
  { name, kind := some v.kind, value := some v }

/-- Null, the word for it and a quote inside a mapping. -/
def nestedData : Value :=
  .mapping [(.string "a]", .sequence [.null, .string "nil", .string "\"]", .number (.int (-3))])]

/-- The nested value has texts for keys, and neither tags nor fractions. -/
theorem isData_nestedData : nestedData.IsData := by
  refine .mapping (by simp [Value.isString]) ?_
  simp only [List.forall_mem_singleton]
  refine .sequence ?_
  simp only [List.forall_mem_cons]
  exact ⟨.null, .string _, .string _, .int _, fun _ hitem => absurd hitem List.not_mem_nil⟩

/-- Data under two names is shown alike, but not like the text that JSON has for it; null is not
shown like its word. -/
theorem display_eq_iff_nestedData :
    (holding "p" nestedData).display = (holding "q" nestedData).display ∧
    (holding "p" nestedData).display ≠
      (holding "p" (.string (String.ofList nestedData.inlineText))).display ∧
    (holding "p" .null).display ≠ (holding "p" (.string "nil")).display := by
  refine ⟨?_, ?_, ?_⟩
  · exact (display_eq_iff rfl rfl isData_nestedData rfl rfl isData_nestedData).mpr rfl
  · intro h
    have heq := (display_eq_iff rfl rfl isData_nestedData rfl rfl (.string _)).mp h
    exact absurd heq (by simp [nestedData])
  · intro h
    exact absurd ((display_eq_iff rfl rfl .null rfl rfl (.string _)).mp h) (by simp)

end Parameter

end ChartDocs
