import AgentGraph.Proofs.Run.Journey

/-!
# Surroundings that behave alike

A run sees of its environment only the answers it gets and whether a stop is asked for. So two runs
in environments that do not differ in these take the same course, although the worlds behind may
differ.

Often two environments are alike only for a while. `Environment.Alike` therefore relates worlds for
a number of looks: as long as the run looks for a stop no more often than that, it finds the same. A
passage takes two looks, and a step up to its result takes one, which is what `Course.alike` and
`Step.alike` count.
-/

namespace AgentGraph

variable {σ τ : Type} {env : Environment σ} {env' : Environment τ} {R : Nat → σ → τ → Prop}

/-- Between worlds related for some looks the environments answer alike, and whether a stop is asked
for is the same that often. -/
structure Environment.Alike (env : Environment σ) (env' : Environment τ) (R : Nat → σ → τ → Prop) :
    Prop where
  ask : ∀ {looks s t}, R looks s t → ∀ call, (env'.ask t call).1 = (env.ask s call).1 ∧
    R looks (env.ask s call).2 (env'.ask t call).2
  stop : ∀ {looks s t}, R (looks + 1) s t → (env'.stop t).1 = (env.stop s).1 ∧
    R looks (env.stop s).2 (env'.stop t).2

namespace Environment.Alike

/-- What a look finds on the one side it finds on the other. -/
theorem exists_stop (h : env.Alike env' R) {looks : Nat} {s s' : σ} {t : τ} {stop : Bool}
    (hR : R (looks + 1) s t) (hstop : env.stop s = (stop, s')) :
    ∃ t', env'.stop t = (stop, t') ∧ R looks s' t' := by
  obtain ⟨hsame, hR'⟩ := h.stop hR
  rw [hstop] at hsame hR'
  exact ⟨_, Prod.ext hsame rfl, hR'⟩

end Environment.Alike

namespace Executor

variable {x : Executor} {w w' : Walk} {n : Node} {s s' : σ} {t : τ} {looks : Nat}

theorem exists_perform (h : env.Alike env' R) (hR : R looks s t)
    {result : Option (Except StepError Outcome)}
    (hperform : x.perform env w n s = (result, w', s')) :
    ∃ t', x.perform env' w n t = (result, w', t') ∧ R looks s' t' := by
  cases perform_eq_iff.mp hperform with
  | done haction hresult => exact ⟨t, perform_eq_iff.mpr (.done haction hresult), hR⟩
  | @asked call _ _ _ haction hask hresult =>
      obtain ⟨hsame, hR'⟩ := h.ask hR call
      rw [hask] at hsame hR'
      exact ⟨_, perform_eq_iff.mpr (.asked haction (Prod.ext hsame rfl) hresult), hR'⟩

/-- A step takes one look up to its result. -/
theorem Step.alike (h : env.Alike env' R) (hR : R (looks + 1) s t)
    {result : Except StepError Outcome} (hstep : x.Step env w s n result w' s') :
    ∃ t', x.Step env' w t n result w' t' ∧ R looks s' t' := by
  obtain ⟨hstop, hfind, hperform⟩ := hstep
  obtain ⟨t₁, hstop', hR₁⟩ := h.exists_stop hR hstop
  obtain ⟨t₂, hperform', hR₂⟩ := exists_perform h hR₁ hperform
  exact ⟨t₂, .mk hstop' hfind hperform', hR₂⟩

/-- A course takes two looks for each of its passages. -/
theorem Course.alike (h : env.Alike env' R) {ps : List Passage}
    (hcourse : x.Course env w s ps w' s') (looks : Nat) (hR : R (looks + 2 * ps.length) s t) :
    ∃ t', x.Course env' w t ps w' t' ∧ R looks s' t' := by
  induction hcourse generalizing t with
  | nil w s => exact ⟨t, .nil w t, hR⟩
  | cons hstep hagain hk hfollow _ ih =>
      -- one look for the step and one after it; the rest is for the passages that follow
      obtain ⟨t₁, hstep', hR₁⟩ := hstep.alike h hR
      obtain ⟨t₂, hagain', hR₂⟩ := h.exists_stop hR₁ hagain
      obtain ⟨t', hrest, hR'⟩ := ih hR₂
      exact ⟨t', .cons hstep' hagain' hk hfollow hrest, hR'⟩

/-- An end takes at most two looks. -/
theorem Ends.alike (h : env.Alike env' R) {rest : Nat} {f : Finish σ} (hR : R (looks + 2) s t)
    (hends : x.Ends env rest w s f) : ∃ t', x.Ends env' rest w t ⟨f.status, f.walk, t'⟩ := by
  cases hends with
  -- an ending before any step needs the answer to one look only
  | stopped hstop =>
      obtain ⟨t', hstop', _⟩ := h.exists_stop hR hstop
      exact ⟨t', .stopped hstop'⟩
  | exhausted hstop =>
      obtain ⟨t', hstop', _⟩ := h.exists_stop hR hstop
      exact ⟨t', .exhausted hstop'⟩
  | lost hstop hfind =>
      obtain ⟨t', hstop', _⟩ := h.exists_stop hR hstop
      exact ⟨t', .lost hstop' hfind⟩
  | dropped hstop hfind hperform =>
      obtain ⟨t₁, hstop', hR₁⟩ := h.exists_stop hR hstop
      obtain ⟨t', hperform', _⟩ := exists_perform h hR₁ hperform
      exact ⟨t', .dropped hstop' hfind hperform'⟩
  -- after a step there is a second look, from the worlds that the step has left
  | discarded hstep hagain =>
      obtain ⟨t₁, hstep', hR₁⟩ := hstep.alike h hR
      obtain ⟨t', hagain', _⟩ := h.exists_stop hR₁ hagain
      exact ⟨t', .discarded hstep' hagain'⟩
  | failed hstep hagain =>
      obtain ⟨t₁, hstep', hR₁⟩ := hstep.alike h hR
      obtain ⟨t', hagain', _⟩ := h.exists_stop hR₁ hagain
      exact ⟨t', .failed hstep' hagain'⟩
  | completed hstep hagain hk =>
      obtain ⟨t₁, hstep', hR₁⟩ := hstep.alike h hR
      obtain ⟨t', hagain', _⟩ := h.exists_stop hR₁ hagain
      exact ⟨t', .completed hstep' hagain' hk⟩
  | deadEnd hstep hagain hk hfollow =>
      obtain ⟨t₁, hstep', hR₁⟩ := hstep.alike h hR
      obtain ⟨t', hagain', _⟩ := h.exists_stop hR₁ hagain
      exact ⟨t', .deadEnd hstep' hagain' hk hfollow⟩

variable {occasion : Occasion} {task : Task} {ps : List Passage} {f : Finish σ}

/-- **Environments that stay alike make the same journey.** -/
theorem Journey.alike (h : env.Alike env' R) (hR : ∀ looks, R looks s t)
    (hjourney : x.Journey env occasion task s ps f) :
    ∃ t', x.Journey env' occasion task t ps ⟨f.status, f.walk, t'⟩ := by
  obtain ⟨hstart, hcourse, hlength, hends⟩ := hjourney
  obtain ⟨t₁, hcourse', hR₁⟩ := hcourse.alike h 2 (hR (2 + 2 * ps.length))
  obtain ⟨t', hends'⟩ := hends.alike h hR₁
  exact ⟨t', .mk hstart hcourse' hlength hends'⟩

end Executor

end AgentGraph
