import AgentGraph.Proofs.Text.Template

/-!
# Double braces in the way

The plain way to fill a template is to look at every character: where a placeholder begins its value
is put out, and otherwise the character is copied (`renderAll`). The pass of `render` stops at
double braces only and copies two of them at once when they begin no placeholder. When a placeholder
begins with the second one, it is missed.

`render_eq_renderAll_iff` says for which templates this makes a difference: those in which some
placeholder stands right behind an odd number of opening braces. A text without such a placeholder
is `Paired`, and whether it is follows the rules of the pass. The two ways agree on paired texts
(`scan_eq`). On any other the plain scan replaces more, which shows when all values are empty
(`length_scan_le`).
-/

namespace AgentGraph.Template

variable {s : Slot} {c : Char} {cs rest : List Char} {ps : List Piece} {value : Slot → List Char}

/-! ### The plain scan -/

/-- At each character, put out the value of the placeholder that begins there and go on behind it,
or else copy the character. -/
def scan (value : Slot → List Char) : List Char → List Char
  | [] => []
  | c :: rest =>
    match slotAt? (c :: rest) with
    | some s => value s ++ scan value (rest.drop (s.placeholder.length - 1))
    | none => c :: scan value rest
termination_by cs => cs.length
decreasing_by
  · rw [List.length_drop, List.length_cons]
    omega
  · exact Nat.lt_succ_self _

/-- The template with every placeholder replaced by its value. -/
def renderAll (template : String) (ctx : Context) : String :=
  String.ofList (scan (fun s => (s.value ctx).toList) template.toList)

theorem scan_nil : scan value [] = [] := by rw [scan]

theorem scan_cons (h : slotAt? (c :: rest) = none) :
    scan value (c :: rest) = c :: scan value rest := by
  rw [scan, h]

theorem scan_placeholder (s : Slot) (rest : List Char) :
    scan value (s.placeholder ++ rest) = value s ++ scan value rest := by
  have hslot : slotAt? ('\x7b' :: ('\x7b' :: s.body ++ rest)) = some s := slotAt?_placeholder s rest
  have hdrop : ('\x7b' :: s.body ++ rest).drop (s.placeholder.length - 1) = rest := List.drop_left
  show scan value ('\x7b' :: ('\x7b' :: s.body ++ rest)) = _
  rw [scan, hslot]
  simp only [hdrop]

theorem scan_opening (h : slotAt? (opening ++ rest) = none) :
    scan value (opening ++ rest) = '\x7b' :: scan value ('\x7b' :: rest) := scan_cons h

/-- Characters that are no opening braces are copied. -/
theorem scan_append {front : List Char} (hfront : ∀ c ∈ front, c ≠ '\x7b') (rest : List Char) :
    scan value (front ++ rest) = front ++ scan value rest := by
  induction front with
  | nil => rfl
  | cons c front ih =>
      obtain ⟨hc, hfront⟩ := List.forall_mem_cons.mp hfront
      rw [List.cons_append, scan_cons (slotAt?_of_not_opening (not_opening_of_ne hc _)), ih hfront,
        List.cons_append]

/-- A placeholder without its first brace is copied. -/
theorem scan_body (s : Slot) (rest : List Char) :
    scan value ('\x7b' :: (s.body ++ rest)) = '\x7b' :: (s.body ++ scan value rest) := by
  rw [scan_cons (slotAt?_of_not_opening (s.not_opening_body rest)),
    scan_append fun c hc => Slot.ne_brace_of_mem_body hc]

/-! ### Texts in which braces come in pairs -/

/-- Every placeholder that stands in the text stands behind an even number of opening braces. -/
def Paired (cs : List Char) : Prop :=
  ∀ s before after, Slot.StandsIn s cs before after → Even (bracesAtEnd before)

theorem paired_nil : Paired [] := fun _ _ _ hs => absurd rfl hs.ne_nil

theorem paired_cons_iff (hopening : ¬ opening <+: c :: rest) :
    Paired (c :: rest) ↔ Paired rest := by
  constructor
  · intro h s before after hs
    rw [← hs.bracesAtEnd_cons hopening]
    exact h s _ after (hs.prepend [c])
  · intro h s before after hs
    obtain ⟨before, rfl, hrest⟩ := hs.of_cons hopening
    rw [hrest.bracesAtEnd_cons hopening]
    exact h s before after hrest

theorem paired_placeholder_iff (t : Slot) : Paired (t.placeholder ++ rest) ↔ Paired rest := by
  constructor
  · intro h s before after hs
    rw [← bracesAtEnd_placeholder t]
    exact h s _ after (hs.prepend t.placeholder)
  · intro h s before after hs
    rcases hs.of_placeholder with ⟨rfl, _⟩ | ⟨before, rfl, hrest⟩
    · exact ⟨0, rfl⟩
    · rw [bracesAtEnd_placeholder]
      exact h s before after hrest

/-- Double braces that begin no placeholder must not hide one either. -/
theorem paired_opening_iff (hslot : slotAt? (opening ++ rest) = none) :
    Paired (opening ++ rest) ↔ slotAt? ('\x7b' :: rest) = none ∧ Paired rest := by
  constructor
  · intro h
    refine ⟨slotAt?_eq_none_iff.mpr fun s hs => ?_, fun s before after hs => ?_⟩
    · obtain ⟨after, hafter⟩ := hs
      -- a placeholder at the second brace has one brace before it
      have hodd := h s ['\x7b'] after (congrArg ('\x7b' :: ·) hafter.symm)
      exact absurd hodd (by decide)
    · rw [← even_bracesAtEnd_opening]
      exact h s _ after (hs.prepend opening)
  · rintro ⟨hsecond, h⟩ s before after hs
    rcases hs.of_opening hslot with ⟨_, hprefix⟩ | ⟨before, rfl, hrest⟩
    · exact absurd hprefix (slotAt?_eq_none_iff.mp hsecond s)
    · rw [even_bracesAtEnd_opening]
      exact h s before after hrest

/-! ### The pass and the scan -/

/-- The two ways agree where braces come in pairs. -/
theorem scan_eq (h : CutsInto cs ps) (hpaired : Paired cs) :
    scan value cs = ps.flatMap (·.fill value) := by
  induction h with
  | nothing => exact scan_nil
  | copied hopening _ ih =>
      rw [scan_cons (slotAt?_of_not_opening hopening), ih ((paired_cons_iff hopening).mp hpaired)]
      rfl
  | filled s _ ih =>
      rw [scan_placeholder, ih ((paired_placeholder_iff s).mp hpaired)]
      rfl
  -- two braces are passed over one by one, as no placeholder is at the second
  | passed hslot _ ih =>
      obtain ⟨hsecond, hrest⟩ := (paired_opening_iff hslot).mp hpaired
      rw [List.flatMap_append, Piece.flatMap_fill_map_literal, ← ih hrest, scan_opening hslot,
        scan_cons hsecond]
      rfl

/-- With empty values the scan leaves no more than the pass, as it replaces at least as much, and it
leaves less unless braces come in pairs. -/
theorem length_scan_le (h : CutsInto cs ps) :
    (scan (fun _ => []) cs).length ≤ (ps.flatMap (·.fill fun _ => [])).length ∧
      ((ps.flatMap (·.fill fun _ => [])).length ≤ (scan (fun _ => []) cs).length → Paired cs) := by
  induction h with
  | nothing => exact ⟨Nat.le_of_eq (by rw [scan_nil]; rfl), fun _ => paired_nil⟩
  | copied hopening _ ih =>
      rw [scan_cons (slotAt?_of_not_opening hopening), paired_cons_iff hopening]
      simpa [Piece.fill] using ih
  | filled s _ ih =>
      rw [scan_placeholder, paired_placeholder_iff]
      simpa [Piece.fill] using ih
  | @passed rest ps hslot _ ih =>
      have hopening : opening.length = 2 := rfl
      rw [scan_opening hslot, paired_opening_iff hslot, List.flatMap_append,
        Piece.flatMap_fill_map_literal, List.length_cons, List.length_append, hopening]
      obtain ⟨hle, hpaired⟩ := ih
      cases hsecond : slotAt? ('\x7b' :: rest) with
      | none =>
          rw [scan_cons hsecond, List.length_cons]
          exact ⟨by omega, fun h => ⟨rfl, hpaired (by omega)⟩⟩
      | some s =>
          -- the scan replaces this placeholder, the pass copies what follows the two braces
          obtain ⟨more, hmore⟩ := slotAt?_eq_some_iff.mp hsecond
          obtain rfl : '\x7b' :: (s.body ++ more) = rest := (List.cons.inj hmore).2
          rw [scan_body, List.length_cons, List.length_append] at hle
          rw [← hmore, scan_placeholder, List.nil_append]
          exact ⟨by omega, fun h => absurd h (by omega)⟩

/-- **Where the two ways agree**: a template is rendered like that by a plain scan, in every
context, exactly when each placeholder in it stands behind an even number of opening braces. -/
theorem render_eq_renderAll_iff (template : String) :
    (∀ ctx, render template ctx = renderAll template ctx) ↔
      ∀ s before after, Slot.StandsIn s template.toList before after →
        Even (bracesAtEnd before) := by
  obtain ⟨ps, hps, hfill⟩ := exists_cutsInto template.toList
  constructor
  · intro h
    -- empty values tell the two apart: they leave as many characters as are replaced
    have hempty : ∀ s : Slot, (s.value (.start "" [])).toList = [] := by
      intro s
      cases s <;> rfl
    have hlength := congrArg String.length (h (.start "" []))
    rw [render, renderAll] at hlength
    simp only [String.length_ofList, hempty, hfill] at hlength
    exact (length_scan_le hps).2 (Nat.le_of_eq hlength)
  · intro hpaired ctx
    rw [render, renderAll, hfill, scan_eq hps hpaired]

/-- A single brace in front is enough for a placeholder to be missed. -/
example :
    render "\x7b\x7b\x7binput\x7d\x7d\x7d" (.start "hi" []) = "\x7b\x7b\x7binput\x7d\x7d\x7d" ∧
    renderAll "\x7b\x7b\x7binput\x7d\x7d\x7d" (.start "hi" []) = "\x7bhi\x7d" := by decide +kernel

end AgentGraph.Template
