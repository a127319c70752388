import ChartDocs.Value.Basic

/-!
# Deciding equality of values

Equality of trees is decided by a Boolean comparison that runs through both trees at once.
-/

namespace ChartDocs.Value

mutual

/-- Whether two trees are the same. -/
def equal : Value → Value → Bool
  | null, null => true
  | bool a, bool b => a = b
  | number a, number b => a = b
  | string a, string b => a = b
  | sequence xs, sequence ys => equalItems xs ys
  | mapping es, mapping fs => equalEntries es fs
  | tagged s v, tagged t w => s = t && equal v w
  | _, _ => false

/-- Whether two sequences are the same. -/
def equalItems : List Value → List Value → Bool
  | [], [] => true
  | x :: xs, y :: ys => equal x y && equalItems xs ys
  | _, _ => false

/-- Whether two lists of entries are the same. -/
def equalEntries : List (Value × Value) → List (Value × Value) → Bool
  | [], [] => true
  | (k, v) :: es, (l, w) :: fs => equal k l && equal v w && equalEntries es fs
  | _, _ => false

end

mutual

/-- The test for equality decides whether two values are the same. -/
theorem equal_iff : (a b : Value) → (equal a b = true ↔ a = b)
  | null, b => by cases b <;> simp [equal]
  | bool _, b => by cases b <;> simp [equal]
  | number _, b => by cases b <;> simp [equal]
  | string _, b => by cases b <;> simp [equal]
  | sequence xs, b => by cases b <;> simp [equal, equalItems_iff xs]
  | mapping es, b => by cases b <;> simp [equal, equalEntries_iff es]
  | tagged _ v, b => by cases b <;> simp [equal, equal_iff v]

/-- The test for items decides whether two lists of values are the same. -/
theorem equalItems_iff : (xs ys : List Value) → (equalItems xs ys = true ↔ xs = ys)
  | [], ys => by cases ys <;> simp [equalItems]
  | x :: xs, ys => by cases ys <;> simp [equalItems, equal_iff x, equalItems_iff xs]

/-- The test for entries decides whether two lists of keys and values are the same. -/
theorem equalEntries_iff :
    (es fs : List (Value × Value)) → (equalEntries es fs = true ↔ es = fs)
  | [], fs => by cases fs <;> simp [equalEntries]
  | (k, v) :: es, fs => by
    rcases fs with _ | ⟨⟨l, w⟩, fs⟩ <;>
      simp [equalEntries, equal_iff k, equal_iff v, equalEntries_iff es]

end

instance : DecidableEq Value := fun a b => decidable_of_iff _ (equal_iff a b)

example : Value.record [("a", .null)] ≠ Value.record [("b", .null)] := by decide

end ChartDocs.Value
