import ChartDocs.Proofs.Block.Basic
import ChartDocs.Proofs.Markup.Printing

/-!
# The scan of a block

While a block is scanned, the trail holds the keys on the way to the current entry, below whatever
earlier entries of the same level have left open. The next key line of the level closes the latter,
so every unit is named by its own steps, and after the block the trail can be used by the level
above.
-/

namespace ChartDocs.Block

open Text Markup ChartDocs.Path

/-- An indentation has only blanks. -/
theorem isBlank_of_mem_indent {depth : Nat} {c : Char} (h : c ∈ indent depth) :
    isBlank c = true := by
  rw [List.eq_of_mem_replicate h]
  decide

/-- An indentation is dropped at the start of a line. -/
theorem trimStart_indent (depth : Nat) (text : List Char) :
    trimStart (indent depth ++ text) = trimStart text :=
  trimStart_append (fun _ hc => isBlank_of_mem_indent hc) text

/-- An indented text is indented by two blanks for every level. -/
theorem takeWhile_indent (depth : Nat) {c : Char} (hc : isBlank c = false) (text : List Char) :
    ((indent depth ++ c :: text).takeWhile isBlank).length = 2 * depth := by
  rw [List.takeWhile_append_of_pos fun _ hb => isBlank_of_mem_indent hb,
    List.takeWhile_cons_of_neg (by simp [hc]), List.append_nil, indent, List.length_replicate]

/-- A text that starts with a character of keys is read as a key without quotes. -/
theorem takeKey?_of_isKeyChar {c : Char} (h : isKeyChar c = true) (hhyphen : c ≠ '-')
    (text : List Char) : takeKey? (c :: text) = takeBare? (c :: text) := by
  have hne : ∀ mark ∈ ":#\"'[. \n\r".toList, c ≠ mark := by
    rintro mark hmark rfl
    rw [isKeyChar_eq_false_of_mem hmark] at h
    exact Bool.noConfusion h
  have hcolon : c ≠ ':' := hne ':' (by decide)
  rw [takeKey?]
  · simp [hcolon, hhyphen]
  · exact hne '"' (by decide)
  · exact hne '\'' (by decide)

/-- A key line is read as its key at its level. -/
theorem keyLine?_keyText {key after : List Char} (hkey : IsKey key)
    (hafter : after = [] ∨ ∃ text, after = ' ' :: text) (depth : Nat) :
    keyLine? (keyText depth key after) = some ⟨2 * depth, key⟩ := by
  obtain ⟨c, rest, hsplit, hc, hhyphen⟩ := hkey.exists_eq_cons
  have hblank : isBlank c = false := isBlank_of_isKeyChar hc
  have hmem : c ∈ key := by
    rw [hsplit]
    exact List.mem_cons_self
  have hcolon : ':' ∉ key := hkey.not_mem (by decide)
  have hhash : '#' ∉ key := hkey.not_mem (by decide)
  have htext : trimStart (keyText depth key after) = key ++ ':' :: after := by
    rw [keyText, trimStart_indent, hsplit, List.cons_append, trimStart_cons_of_not hblank]
  have hcomment : isComment ['#', '#'] (keyText depth key after) = false := by
    have hne : '#' ≠ c := fun e => hhash (e ▸ hmem)
    rw [isComment, htext, hsplit]
    simp [startsWith, dropLeading?, hne, hne.symm]
  have hbare : takeKey? (key ++ ':' :: after) = some (key, after) := by
    rw [hsplit, List.cons_append, takeKey?_of_isKeyChar hc hhyphen, ← List.cons_append, ← hsplit,
      takeBare?, cutAt?_append hcolon]
    simp [hhash, hkey.trimEnd_eq_self]
  have hlength : ((keyText depth key after).takeWhile isBlank).length = 2 * depth := by
    rw [keyText, hsplit, List.cons_append, takeWhile_indent depth hblank]
  have hhead : after.head?.all isBlank = true := by
    rcases hafter with rfl | ⟨text, rfl⟩ <;> rfl
  rw [keyLine?, KeyLine.ofLine?, hcomment, htext, hbare, hlength]
  simp [hhead]

/-- The tag of a unit is read as a tag without a path. -/
theorem tagLine?_tagText {label : List Char} (h : IsLabel label) (depth : Nat) :
    ∃ tag : TagLine, tagLine? (tagText depth label) = some (.param, tag) ∧ tag.path = none := by
  have hcomment : commentText? (tagText depth label) = some ("@param".toList ++ ' ' :: label) := by
    have hline := commentText?_word (word_mem_tagWords .param) (' ' :: label)
    rw [commentText?] at hline ⊢
    rw [tagText, trimStart_indent]
    exact hline
  have hread : tagOf? .param (tagText depth label) = some (TagLine.ofRest (' ' :: label)) := by
    rw [tagOf?_eq_map, hcomment, Option.bind_some]
    exact congrArg _ (dropWord?_append (word_mem_tagWords .param) (Or.inr ⟨label, rfl⟩))
  refine ⟨TagLine.ofRest (' ' :: label), tagLine?_eq_some_iff.mpr hread, ?_⟩
  have hhead : (trimStart (' ' :: label)).head? ≠ some '(' := h.head
  rw [ofRest_of_head? hhead]

/-- An item of a list is neither a key line nor a comment. -/
theorem takeLine_itemText (depth : Nat) (text : List Char) (s : State) :
    s.takeLine (itemText depth text) = s := by
  have htext : trimStart (itemText depth text) = '-' :: ' ' :: text := by
    rw [itemText, trimStart_indent, trimStart_cons_of_not (by decide)]
  have hkey : keyLine? (itemText depth text) = none := by
    have hno : takeKey? ('-' :: ' ' :: text) = none := by
      rw [takeKey?] <;> simp
    rw [keyLine?, KeyLine.ofLine?, htext, hno]
    split <;> rfl
  have hcomment : commentText? (itemText depth text) = none := by
    rw [commentText?, htext]
    rfl
  exact State.takeLine_of_commentText?_eq_none hkey hcomment s

/-- Steps by plain keys. -/
def IsWay (steps : List Segment) : Prop :=
  ∀ s ∈ steps, ∃ key, IsKey key ∧ s = step key

/-- Steps by plain keys go on with a plain key. -/
theorem isWay_concat {above : List Segment} (h : IsWay above) {key : List Char} (hkey : IsKey key) :
    IsWay (above ++ [step key]) := by
  intro s hs
  rcases List.mem_append.mp hs with hs | hs
  · exact h s hs
  · exact ⟨key, hkey, List.mem_singleton.mp hs⟩

/-- No step by plain keys is one by the empty key. -/
theorem IsWay.ne_empty {steps : List Segment} (h : IsWay steps) : ∀ s ∈ steps, s ≠ .key "" := by
  rintro s hs rfl
  obtain ⟨key, hkey, heq⟩ := h _ hs
  have hname : "" = String.ofList key := Segment.key.inj heq
  exact hkey.ne_nil (String.ofList_injective hname.symm)

/-- Below what earlier entries of the level have left open, the trail holds the keys that lead to
the level. -/
structure Leads (trail : Trail) (depth : Nat) (outer : Trail) (above : List Segment) : Prop where
  dropWhile : trail.dropWhile (2 * depth ≤ ·.indent) = outer
  path : outer.path = render above
  nil_iff : outer = [] ↔ above = []

namespace Leads

variable {trail outer : Trail} {depth : Nat} {above : List Segment} {key : List Char}

/-- The key of an entry is put above the keys that lead to its level. -/
theorem enter (h : Leads trail depth outer above) (key : List Char) :
    trail.enter ⟨2 * depth, key⟩ = ⟨2 * depth, key⟩ :: outer := by
  rw [Trail.enter, h.dropWhile]

/-- The path of an entry is made of the steps to it. -/
theorem path_enter (h : Leads trail depth outer above) (hway : IsWay above) (key : List Char) :
    (trail.enter ⟨2 * depth, key⟩).path = render (above ++ [step key]) := by
  rw [h.enter, render, List.foldl_append, ← render, List.foldl_cons, List.foldl_nil]
  by_cases habove : above = []
  · have houter : outer = [] := h.nil_iff.mpr habove
    rw [houter, habove]
    simp [Trail.path, Trail.joined, join, render, extend, step]
  · have houter : outer ≠ [] := fun e => habove (h.nil_iff.mp e)
    rw [Trail.path_cons houter, h.path, extend_of_ne_nil (render_ne_nil habove hway.ne_empty)]
    simp [Segment.text, step]

/-- The next entry of the level finds the same keys on its way. -/
theorem next (h : Leads trail depth outer above) (key : List Char) :
    Leads (trail.enter ⟨2 * depth, key⟩) depth outer above where
  dropWhile := by
    rw [h.enter, List.dropWhile_cons_of_pos (by simp), ← h.dropWhile, List.dropWhile_idempotent]
  path := h.path
  nil_iff := h.nil_iff

/-- An entry of the level below finds one more key on its way. -/
theorem inner (h : Leads trail depth outer above) (hway : IsWay above) (key : List Char) :
    Leads (trail.enter ⟨2 * depth, key⟩) (depth + 1) (trail.enter ⟨2 * depth, key⟩)
      (above ++ [step key]) where
  dropWhile := by
    rw [h.enter, List.dropWhile_cons_of_neg (by simp)]
  path := h.path_enter hway key
  nil_iff := by
    rw [h.enter]
    simp

/-- After the level below, the keys on the way are the same again. -/
theorem after_inner (h : Leads trail depth outer above) {below : Trail}
    (hbelow : Leads below (depth + 1) (trail.enter ⟨2 * depth, key⟩) (above ++ [step key])) :
    Leads below depth outer above where
  dropWhile := by
    rw [← Trail.dropWhile_dropWhile (show 2 * depth ≤ 2 * (depth + 1) by omega), hbelow.dropWhile]
    exact (h.next key).dropWhile
  path := h.path
  nil_iff := h.nil_iff

end Leads

/-- The state without sections and without a waiting parameter. -/
def plain (ps : List Parameter) (trail : Trail) : State where
  catalog := { parameters := ps }
  trail := trail

/-- The key line of a mapping opens its key. -/
theorem take_keyText {key : List Char} (hkey : IsKey key) (depth : Nat) (ps : List Parameter)
    (trail : Trail) :
    ((plain ps trail).takeLine (keyText depth key [])).describing {} (keyText depth key []) =
      plain ps (trail.enter ⟨2 * depth, key⟩) := by
  have htake : (plain ps trail).takeLine (keyText depth key []) =
      plain ps (trail.enter ⟨2 * depth, key⟩) := by
    rw [State.takeLine, keyLine?_keyText hkey (Or.inl rfl)]
    rfl
  rw [htake]
  exact State.describing_of_not_capturing rfl (Or.inl rfl)

/-- The tag and the key line of a unit document a parameter under the steps to the unit. -/
theorem exists_takeLines_unit {key label after : List Char} (hkey : IsKey key)
    (hlabel : IsLabel label) (hafter : after = [] ∨ ∃ text, after = ' ' :: text) {depth : Nat}
    {trail outer : Trail} {above : List Segment} (hway : IsWay above)
    (hleads : Leads trail depth outer above) (rest : List (List Char)) (ps : List Parameter) :
    ∃ p : Parameter, p.name = String.ofList (render (above ++ [step key])) ∧
      State.takeLines (tagText depth label :: keyText depth key after :: rest) (plain ps trail) =
        State.takeLines rest (plain (ps ++ [p]) (trail.enter ⟨2 * depth, key⟩)) := by
  obtain ⟨tag, hread, hpath⟩ := tagLine?_tagText hlabel depth
  have htag : (plain ps trail).takeLine (tagText depth label) =
      { plain ps trail with pending := some (TagKind.param.build tag) } := by
    rw [State.takeLine, keyLine?_of_tagLine? hread, hread]
    dsimp only
    rw [State.takeTag, hpath]
    rfl
  refine ⟨{ TagKind.param.build tag with
    name := String.ofList (trail.enter ⟨2 * depth, key⟩).path }, ?_, ?_⟩
  · rw [hleads.path_enter hway]
  · have hkeyLine : State.takeLine (keyText depth key after)
        { plain ps trail with pending := some (TagKind.param.build tag) } =
        plain (ps ++ [{ TagKind.param.build tag with
          name := String.ofList (trail.enter ⟨2 * depth, key⟩).path }])
          (trail.enter ⟨2 * depth, key⟩) := by
      rw [State.takeLine, keyLine?_keyText hkey hafter]
      rfl
    rw [State.takeLines_cons, htag, State.describing_of_not_capturing rfl (Or.inl rfl),
      State.takeLines_cons, hkeyLine, State.describing_of_not_capturing rfl (Or.inl rfl)]

/-- The items of a list change nothing. -/
theorem takeLines_items (texts : List (List Char)) (depth : Nat) (ps : List Parameter)
    (trail : Trail) :
    State.takeLines (texts.map (itemText depth)) (plain ps trail) = plain ps trail := by
  induction texts with
  | nil => rfl
  | cons text texts ih =>
    rw [List.map_cons, State.takeLines_cons, takeLine_itemText,
      State.describing_of_not_capturing rfl (Or.inl rfl), ih]

/-- The scan of a block documents its units, in order. -/
theorem exists_takeLines_lines {b : Block} (h : b.Printable) {depth : Nat} {trail outer : Trail}
    {above : List Segment} (hway : IsWay above) (hleads : Leads trail depth outer above)
    (ps : List Parameter) :
    ∃ ps' trail', State.takeLines (b.lines depth) (plain ps trail) = plain ps' trail' ∧
      ps'.map (·.name) = ps.map (·.name) ++ (b.units above).map unitName ∧
      Leads trail' depth outer above := by
  induction b generalizing depth trail outer above ps with
  | done => exact ⟨ps, trail, rfl, by simp [units], hleads⟩
  | scalar key label text value rest ih =>
    obtain ⟨⟨hkey, -⟩, hlabel, -, -, hrest⟩ := h
    obtain ⟨p, hname, htake⟩ := exists_takeLines_unit hkey hlabel (Or.inr ⟨text, rfl⟩) hway hleads
      (rest.lines depth) ps
    obtain ⟨ps', trail', hrun, hnames, hleads'⟩ := ih hrest hway (hleads.next key) (ps ++ [p])
    refine ⟨ps', trail', by rw [lines, htake, hrun], ?_, hleads'⟩
    rw [hnames, units, List.map_append, List.map_singleton, hname, List.map_cons,
      List.append_assoc]
    rfl
  | list key label items rest ih =>
    obtain ⟨⟨hkey, -⟩, hlabel, -, -, hrest⟩ := h
    obtain ⟨p, hname, htake⟩ := exists_takeLines_unit hkey hlabel (Or.inl rfl) hway hleads
      (items.map (fun item => itemText (depth + 1) item.1) ++ rest.lines depth) ps
    have hitems := takeLines_items (items.map Prod.fst) (depth + 1) (ps ++ [p])
      (trail.enter ⟨2 * depth, key⟩)
    rw [List.map_map] at hitems
    obtain ⟨ps', trail', hrun, hnames, hleads'⟩ := ih hrest hway (hleads.next key) (ps ++ [p])
    refine ⟨ps', trail', ?_, ?_, hleads'⟩
    · rw [lines, htake, State.takeLines_append]
      exact (congrArg _ hitems).trans hrun
    · rw [hnames, units, List.map_append, List.map_singleton, hname, List.map_cons,
        List.append_assoc]
      rfl
  | mapping key inner rest ihinner ihrest =>
    obtain ⟨⟨hkey, -⟩, -, hinner, hrest⟩ := h
    obtain ⟨ps₁, trail₁, hrun₁, hnames₁, hleads₁⟩ :=
      ihinner hinner (isWay_concat hway hkey) (hleads.inner hway key) ps
    obtain ⟨ps₂, trail₂, hrun₂, hnames₂, hleads₂⟩ :=
      ihrest hrest hway (hleads.after_inner hleads₁) ps₁
    refine ⟨ps₂, trail₂, ?_, ?_, hleads₂⟩
    · rw [lines, State.takeLines_cons, take_keyText hkey, State.takeLines_append, hrun₁, hrun₂]
    · rw [hnames₂, hnames₁, units, List.map_append, List.append_assoc]

/-- The text of a block documents its units, in order. -/
theorem names_ofText {b : Block} (h : b.Printable) :
    (Catalog.ofText {} b.text).parameters.map (·.name) = (b.units []).map unitName := by
  have hway : IsWay [] := fun s hs => absurd hs List.not_mem_nil
  have hleads : Leads [] 0 [] [] := ⟨rfl, rfl, by simp⟩
  obtain ⟨ps, trail, hrun, hnames, -⟩ := exists_takeLines_lines h hway hleads []
  have hstart : State.takeLines (b.lines 0) {} = plain ps trail := hrun
  rw [ofText_eq_takeLines, lines_text h, hstart]
  exact hnames

end ChartDocs.Block
