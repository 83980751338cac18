import AgentGraph.Proofs.Json.Document
import AgentGraph.Proofs.Json.SkipLeaves
import Mathlib.Data.List.DropRight

/-!
# What stands where something was read

What is read of a list is read item by item, and what is read of an object member by member. The
readers bound their walks by the length of the text, and the bound is never met, because every step
but the first reads at least one character. So there are relations without a bound: `ReadsItems` and
`ReadsMembers` say how a walk goes, and the readers read what the relations say
(`readsItems_of_items`, `ReadsItems.yields_items` and the same for members). `ReadsValue` says what
stands where a value is read (`yields_valueWithin_iff`).
-/

namespace AgentGraph.Json.Reader

variable {α β σ : Type} {cs mid rest : List Char}

/-! ### The next character -/

theorem yields_peekToken?_iff {c? : Option Char} :
    Yields peekToken? cs (some c?) mid ↔ c? = (cs.dropWhile isBlank).head? ∧
    mid = cs.dropWhile isBlank := by
  constructor
  · rintro ⟨⟩
    exact ⟨rfl, rfl⟩
  · rintro ⟨rfl, rfl⟩
    rfl

/-- The next character is seen through the blanks before it. -/
theorem yields_peekValue_of_dropBlanks {c : Char} {more : List Char}
    (h : cs.dropWhile isBlank = c :: more) : Yields peekValue cs (some c) (c :: more) := by
  rw [peekValue]
  refine Yields.andThen (yields_peekToken?_iff.mpr ⟨rfl, rfl⟩) ?_
  rw [h]
  rfl

theorem length_dropBlanks_le (cs : List Char) : (cs.dropWhile isBlank).length ≤ cs.length :=
  (List.dropWhile_suffix _).length_le

/-! ### Lists -/

namespace Consumes

theorem colon : Consumes Reader.colon := by
  refine peekToken?.andThen fun c? => ?_
  split
  · exact .failAtNext _
  · exact skip
  · exact .failAtNext _

theorem hasItem (first : Bool) : Consumes (Reader.hasItem first) := by
  refine peekToken?.andThen fun c? => ?_
  split
  · exact .failAtNext _
  · exact .pure _
  · split
    · exact .pure _
    · refine skip.andThen fun _ => peekToken?.andThen fun d? => ?_
      split
      · exact .failAtNext _
      · exact .failAtNext _
      · exact .pure _
  · split
    · exact .pure _
    · exact .failAtNext _

theorem endList : Consumes Reader.endList := by
  refine peekToken?.andThen fun c? => ?_
  split
  · exact .failAtNext _
  · exact skip
  · refine skip.andThen fun _ => peekToken?.andThen fun d? => ?_
    split <;> exact .failAtNext _
  · exact .failAtNext _

end Consumes

/-- The first item comes right away, and every other one after a comma. -/
theorem yields_hasItem_true {first : Bool} (h : Yields (hasItem first) cs (some true) mid) :
    (first = true ∧ mid = cs.dropWhile isBlank ∧ ∃ c more, mid = c :: more ∧ c ≠ ']') ∨
      first = false ∧ ∃ more, cs.dropWhile isBlank = ',' :: more ∧
      mid = more.dropWhile isBlank := by
  rw [hasItem] at h
  obtain ⟨c?, text, htoken, h⟩ := h.of_bind
  obtain ⟨rfl, rfl⟩ := yields_peekToken?_iff.mp htoken
  split at h
  · cases h
  · cases h.of_pure.1
  next heq =>
    obtain ⟨more, hmore⟩ := List.head?_eq_some_iff.mp heq
    rw [hmore] at h ⊢
    cases first with
    -- a comma in front of the first item is taken for the beginning of the item
    | true =>
        obtain ⟨-, rfl⟩ := h.of_pure
        exact .inl ⟨rfl, rfl, ',', more, rfl, by decide⟩
    -- between items there is one comma, and no bracket right behind it
    | false =>
        rw [if_neg (by decide)] at h
        obtain ⟨_, _, ⟨⟩, h⟩ := h.of_bind
        obtain ⟨d?, text, htoken, h⟩ := h.of_bind
        obtain ⟨rfl, rfl⟩ := yields_peekToken?_iff.mp htoken
        split at h
        · cases h
        · cases h
        · obtain ⟨-, rfl⟩ := h.of_pure
          exact .inr ⟨rfl, more, rfl, rfl⟩
  next c hclosing hcomma heq =>
    obtain ⟨more, hmore⟩ := List.head?_eq_some_iff.mp heq
    rw [hmore] at h ⊢
    split at h
    next hfirst =>
      obtain ⟨-, rfl⟩ := h.of_pure
      exact .inl ⟨hfirst, rfl, c, more, rfl, hclosing⟩
    next => cases h

/-- Where there is no further item the bracket is next. -/
theorem yields_hasItem_false {first : Bool} (h : Yields (hasItem first) cs (some false) mid) :
    mid = cs.dropWhile isBlank ∧ ∃ more, mid = ']' :: more := by
  rw [hasItem] at h
  obtain ⟨c?, text, htoken, h⟩ := h.of_bind
  obtain ⟨rfl, rfl⟩ := yields_peekToken?_iff.mp htoken
  split at h
  · cases h
  next heq =>
    obtain ⟨-, rfl⟩ := h.of_pure
    exact ⟨rfl, List.head?_eq_some_iff.mp heq⟩
  · split at h
    · cases h.of_pure.1
    · obtain ⟨_, _, ⟨⟩, h⟩ := h.of_bind
      obtain ⟨d?, text, htoken, h⟩ := h.of_bind
      split at h
      · cases h
      · cases h
      · cases h.of_pure.1
  · split at h
    · cases h.of_pure.1
    · cases h

theorem yields_endList_cons {more : List Char} (h : Yields endList (']' :: more) (some ()) rest) :
    more = rest := by
  have : Yields endList (']' :: more) (some ()) more := yields_endList blanks_nil
  have := this.eq.symm.trans h.eq
  cases this
  rfl

/-- Where it is seen whether there is another item, there is something to see. -/
theorem ne_nil_of_hasItem {first more : Bool} (h : Yields (hasItem first) cs (some more) mid) :
    cs ≠ [] := by
  rintro rfl
  cases h

/-- Between two items a comma is read. -/
theorem length_lt_of_hasItem (h : Yields (hasItem false) cs (some true) mid) :
    mid.length < cs.length := by
  obtain ⟨hfirst, -⟩ | ⟨-, more, hcomma, rfl⟩ := yields_hasItem_true h
  · cases hfirst
  · have hle := length_dropBlanks_le cs
    rw [hcomma, List.length_cons] at hle
    exact Nat.lt_of_le_of_lt (length_dropBlanks_le more) hle

theorem ne_nil_of_endList (h : Yields endList mid (some ()) rest) : mid ≠ [] := by
  rintro rfl
  cases h

/-- Items are read one after another, up to the place where there is no further one. -/
inductive ReadsItems (item : Reader α) : Bool → List Char → List α → List Char → Prop
  | done {first : Bool} {cs rest : List Char} :
      Yields (hasItem first) cs (some false) rest → ReadsItems item first cs [] rest
  | next {first : Bool} {cs mid after rest : List Char} {a : α} {as : List α} :
      Yields (hasItem first) cs (some true) mid → Yields item mid (some a) after →
      after.length ≤ mid.length → ReadsItems item false after as rest →
      ReadsItems item first cs (a :: as) rest

theorem readsItems_of_itemsRest {item : Reader α} (hitem : Consumes item) {fuel : Nat}
    {first : Bool} {read as : List α}
    (h : Yields (itemsRest item fuel first read) cs (some as) rest) (hrest : rest ≠ [])
    (hfuel : cs.length < fuel ∨ first = false ∧ cs.length ≤ fuel) :
    ∃ more, as = read.reverse ++ more ∧ ReadsItems item first cs more rest := by
  induction fuel generalizing cs first read with
  | zero =>
      obtain ⟨-, rfl⟩ := h.of_pure
      -- the fuel is used up only when there is no text left
      refine absurd (List.eq_nil_of_length_eq_zero ?_) hrest
      omega
  | succ fuel ih =>
      rw [itemsRest] at h
      obtain ⟨more, mid, hmore, h⟩ := h.of_bind
      cases more with
      | false =>
          rw [if_neg (by decide)] at h
          obtain ⟨rfl, rfl⟩ := h.of_pure
          exact ⟨[], (List.append_nil _).symm, .done hmore⟩
      | true =>
          rw [if_pos rfl] at h
          obtain ⟨a, after, ha, h⟩ := h.of_bind
          have hle := ha.length_le hitem
          have hle' := hmore.length_le (.hasItem first)
          -- behind an item that is not the first there is a comma, so the fuel lasts in either
          -- case
          have hroom : after.length ≤ fuel := by
            rcases hfuel with hlt | ⟨rfl, hfuel⟩
            · omega
            · have := length_lt_of_hasItem hmore
              omega
          obtain ⟨as', rfl, hitems⟩ := ih h (.inr ⟨rfl, hroom⟩)
          exact ⟨a :: as', by rw [List.reverse_cons, List.append_assoc]; rfl,
            .next hmore ha hle hitems⟩

theorem ReadsItems.yields_itemsRest {item : Reader α} {first : Bool} {as : List α}
    (h : ReadsItems item first cs as rest) {fuel : Nat} (read : List α)
    (hfuel : cs.length < fuel ∨ first = false ∧ cs.length ≤ fuel) :
    Yields (itemsRest item fuel first read) cs (some (read.reverse ++ as)) rest := by
  induction h generalizing fuel read with
  | @done first cs rest hmore =>
      have hpos := List.length_pos_iff.mpr (ne_nil_of_hasItem hmore)
      obtain ⟨fuel, rfl⟩ := Nat.exists_eq_succ_of_ne_zero (show fuel ≠ 0 by omega)
      rw [itemsRest, List.append_nil]
      exact hmore.andThen (.pure _ _)
  | @next first cs mid after rest a as hmore ha hle hitems ih =>
      have hpos := List.length_pos_iff.mpr (ne_nil_of_hasItem hmore)
      obtain ⟨fuel, rfl⟩ := Nat.exists_eq_succ_of_ne_zero (show fuel ≠ 0 by omega)
      have hle' := hmore.length_le (.hasItem first)
      have hroom : after.length ≤ fuel := by
        rcases hfuel with hlt | ⟨rfl, hfuel⟩
        · omega
        · have := length_lt_of_hasItem hmore
          omega
      have hread := ih (a :: read) (.inr ⟨rfl, hroom⟩)
      rw [List.reverse_cons, List.append_assoc] at hread
      rw [itemsRest]
      exact hmore.andThen (ha.andThen hread)

/-- **A list is read item by item.** -/
theorem readsItems_of_items {item : Reader α} (hitem : Consumes item) {as : List α}
    (h : Yields (items item) cs (some as) rest) (hrest : rest ≠ []) :
    ReadsItems item true cs as rest := by
  rw [items] at h
  obtain ⟨_, _, ⟨⟩, h⟩ := h.of_bind
  obtain ⟨more, rfl, hitems⟩ := readsItems_of_itemsRest hitem h hrest (.inl (Nat.lt_succ_self _))
  exact hitems

theorem ReadsItems.yields_items {item : Reader α} {as : List α}
    (h : ReadsItems item true cs as rest) : Yields (items item) cs (some as) rest := by
  exact (yields_unread cs).andThen (h.yields_itemsRest [] (.inl (Nat.lt_succ_self _)))

theorem ReadsItems.map {item : Reader α} {item' : Reader β} {g : α → β} {first : Bool} {as : List α}
    (h : ReadsItems item first cs as rest)
    (hitem : ∀ a ∈ as, ∀ cs rest, Yields item cs (some a) rest →
      Yields item' cs (some (g a)) rest) :
    ReadsItems item' first cs (as.map g) rest := by
  induction h with
  | done hmore => exact .done hmore
  | next hmore ha hle _ ih =>
      obtain ⟨hhead, hrest⟩ := List.forall_mem_cons.mp hitem
      exact .next hmore (hhead _ _ ha) hle (ih hrest)

/-! ### Objects -/

namespace Consumes

theorem hasMember (first : Bool) : Consumes (Reader.hasMember first) := by
  refine peekToken?.andThen fun c? => ?_
  split
  · exact .failAtNext _
  · exact .pure _
  · split
    · split
      · exact .pure _
      · exact .failAtNext _
    · split
      · refine skip.andThen fun _ => peekToken?.andThen fun d? => ?_
        split
        · exact .failAtNext _
        · exact .pure _
        · exact .failAtNext _
        · exact .failAtNext _
      · exact .failAtNext _

theorem endObject : Consumes Reader.endObject := by
  refine peekToken?.andThen fun c? => ?_
  split
  · exact .failAtNext _
  · exact skip
  · exact .failAtNext _
  · exact .failAtNext _

end Consumes

/-- Where there is another member its name is next, for the first one right away and for every other
one after a comma. -/
theorem yields_hasMember_true {first : Bool} (h : Yields (hasMember first) cs (some true) mid) :
    (∃ more, mid = '"' :: more) ∧ ((first = true ∧ mid = cs.dropWhile isBlank) ∨
      first = false ∧ ∃ more, cs.dropWhile isBlank = ',' :: more ∧
      mid = more.dropWhile isBlank) := by
  rw [hasMember] at h
  obtain ⟨c?, text, htoken, h⟩ := h.of_bind
  obtain ⟨rfl, rfl⟩ := yields_peekToken?_iff.mp htoken
  split at h
  · cases h
  · cases h.of_pure.1
  next c hclosing heq =>
    obtain ⟨more, hmore⟩ := List.head?_eq_some_iff.mp heq
    rw [hmore] at h ⊢
    split at h
    -- the first member begins with the quotation mark of its name
    next hfirst =>
      split at h
      next hc =>
        obtain ⟨-, rfl⟩ := h.of_pure
        rw [hc]
        exact ⟨⟨more, rfl⟩, .inl ⟨hfirst, rfl⟩⟩
      next => cases h
    next hfirst =>
      split at h
      next hc =>
        obtain ⟨_, _, ⟨⟩, h⟩ := h.of_bind
        obtain ⟨d?, text, htoken, h⟩ := h.of_bind
        obtain ⟨rfl, rfl⟩ := yields_peekToken?_iff.mp htoken
        split at h
        · cases h
        next heq =>
          obtain ⟨-, rfl⟩ := h.of_pure
          rw [hc]
          exact ⟨List.head?_eq_some_iff.mp heq, .inr ⟨by simpa using hfirst, more, rfl, rfl⟩⟩
        · cases h
        · cases h
      next => cases h

/-- Where there is no further member the brace is next. -/
theorem yields_hasMember_false {first : Bool} (h : Yields (hasMember first) cs (some false) mid) :
    mid = cs.dropWhile isBlank ∧ ∃ more, mid = '\x7d' :: more := by
  rw [hasMember] at h
  obtain ⟨c?, text, htoken, h⟩ := h.of_bind
  obtain ⟨rfl, rfl⟩ := yields_peekToken?_iff.mp htoken
  split at h
  · cases h
  next heq =>
    obtain ⟨-, rfl⟩ := h.of_pure
    exact ⟨rfl, List.head?_eq_some_iff.mp heq⟩
  · split at h
    · split at h
      · cases h.of_pure.1
      · cases h
    · split at h
      · obtain ⟨_, _, ⟨⟩, h⟩ := h.of_bind
        obtain ⟨d?, text, htoken, h⟩ := h.of_bind
        split at h
        · cases h
        · cases h.of_pure.1
        · cases h
        · cases h
      · cases h

theorem yields_endObject_cons {more : List Char}
    (h : Yields endObject ('\x7d' :: more) (some ()) rest) : more = rest := by
  have : Yields endObject ('\x7d' :: more) (some ()) more := yields_endObject blanks_nil
  have := this.eq.symm.trans h.eq
  cases this
  rfl

theorem ne_nil_of_hasMember {first more : Bool} (h : Yields (hasMember first) cs (some more) mid) :
    cs ≠ [] := by
  rintro rfl
  cases h

theorem ne_nil_of_endObject (h : Yields endObject mid (some ()) rest) : mid ≠ [] := by
  rintro rfl
  cases h

/-- Members are read one after another, and each is taken note of. -/
inductive ReadsMembers (step : String → σ → Reader σ) : Bool → List Char → σ → σ → List Char → Prop
  | done {first : Bool} {cs rest : List Char} {s : σ} :
      Yields (hasMember first) cs (some false) rest → ReadsMembers step first cs s s rest
  | next {first : Bool} {cs mid text after rest : List Char} {name : String} {s s' s'' : σ} :
      Yields (hasMember first) cs (some true) ('"' :: mid) →
      Yields stringBody mid (some name) text → Yields (step name s) text (some s') after →
      after.length ≤ text.length → ReadsMembers step false after s' s'' rest →
      ReadsMembers step first cs s s'' rest

theorem readsMembers_of_membersRest {step : String → σ → Reader σ}
    (hstep : ∀ name s, Consumes (step name s)) {fuel : Nat} {first : Bool} {s s' : σ}
    (h : Yields (membersRest step fuel first s) cs (some s') rest) (hrest : rest ≠ [])
    (hfuel : cs.length ≤ fuel) : ReadsMembers step first cs s s' rest := by
  induction fuel generalizing cs first s with
  | zero =>
      obtain ⟨-, rfl⟩ := h.of_pure
      exact absurd (List.eq_nil_of_length_eq_zero (Nat.le_zero.mp hfuel)) hrest
  | succ fuel ih =>
      rw [membersRest] at h
      obtain ⟨more, mid, hmore, h⟩ := h.of_bind
      cases more with
      | false =>
          rw [if_neg (by decide)] at h
          obtain ⟨rfl, rfl⟩ := h.of_pure
          exact .done hmore
      | true =>
          rw [if_pos rfl] at h
          obtain ⟨⟨mid, rfl⟩, -⟩ := yields_hasMember_true hmore
          obtain ⟨_, _, ⟨⟩, h⟩ := h.of_bind
          obtain ⟨name, text, hname, h⟩ := h.of_bind
          obtain ⟨t, after, ht, h⟩ := h.of_bind
          -- every part only takes characters away, so what is left of the fuel is enough
          have hle := ht.length_le (hstep name s)
          have hle' := hname.length_le .stringBody
          have hle'' := hmore.length_le (.hasMember first)
          rw [List.length_cons] at hle''
          rw [List.tail_cons] at hle'
          exact .next hmore hname ht hle (ih h (by omega))

theorem ReadsMembers.yields_membersRest {step : String → σ → Reader σ} {first : Bool} {s s' : σ}
    (h : ReadsMembers step first cs s s' rest) {fuel : Nat} (hfuel : cs.length ≤ fuel) :
    Yields (membersRest step fuel first s) cs (some s') rest := by
  induction h generalizing fuel with
  | @done first cs rest s hmore =>
      have hpos := List.length_pos_iff.mpr (ne_nil_of_hasMember hmore)
      obtain ⟨fuel, rfl⟩ := Nat.exists_eq_succ_of_ne_zero (show fuel ≠ 0 by omega)
      rw [membersRest]
      exact hmore.andThen (.pure _ _)
  | @next first cs mid text after rest name s s' s'' hmore hname ht hle _ ih =>
      have hpos := List.length_pos_iff.mpr (ne_nil_of_hasMember hmore)
      obtain ⟨fuel, rfl⟩ := Nat.exists_eq_succ_of_ne_zero (show fuel ≠ 0 by omega)
      have hle' := hname.length_le .stringBody
      have hle'' := hmore.length_le (.hasMember first)
      rw [List.length_cons] at hle''
      rw [membersRest]
      exact hmore.andThen (yields_skip.andThen (hname.andThen (ht.andThen (ih (by omega)))))

/-- **An object is read member by member.** -/
theorem readsMembers_of_foldMembers {step : String → σ → Reader σ}
    (hstep : ∀ name s, Consumes (step name s)) {s s' : σ}
    (h : Yields (foldMembers step s) cs (some s') rest) (hrest : rest ≠ []) :
    ReadsMembers step true cs s s' rest := by
  rw [foldMembers] at h
  obtain ⟨_, _, ⟨⟩, h⟩ := h.of_bind
  exact readsMembers_of_membersRest hstep h hrest (Nat.le_succ _)

theorem ReadsMembers.yields_foldMembers {step : String → σ → Reader σ} {s s' : σ}
    (h : ReadsMembers step true cs s s' rest) : Yields (foldMembers step s) cs (some s') rest := by
  exact (yields_unread cs).andThen (h.yields_membersRest (Nat.le_succ _))

/-! ### Any value -/

/-- A member whose value is kept as it is read. -/
def keepMember (inner : Reader Json) (name : String) (read : List (String × Json)) :
    Reader (List (String × Json)) := do
  colon
  return (name, ← inner) :: read

/-- What stands where a value is read; `inner` reads the values in it. -/
inductive ReadsValue (inner : Option (Reader Json)) : List Char → Json → List Char → Prop
  | null {cs rest : List Char} :
      Yields (word ['u', 'l', 'l']) cs (some ()) rest → ReadsValue inner ('n' :: cs) .null rest
  | yes {cs rest : List Char} :
      Yields (word ['r', 'u', 'e']) cs (some ()) rest →
      ReadsValue inner ('t' :: cs) (.bool true) rest
  | no {cs rest : List Char} :
      Yields (word ['a', 'l', 's', 'e']) cs (some ()) rest →
      ReadsValue inner ('f' :: cs) (.bool false) rest
  | string {cs rest : List Char} {s : String} :
      Yields stringBody cs (some s) rest → ReadsValue inner ('"' :: cs) (.string s) rest
  | number {cs rest : List Char} {c : Char} {n : Number} : beginsNumber c = true →
      Yields number (c :: cs) (some n) rest → ReadsValue inner (c :: cs) (.number n) rest
  | list {cs mid rest : List Char} {item : Reader Json} {vs : List Json} : inner = some item →
      Yields (items item) cs (some vs) mid → Yields endList mid (some ()) rest →
      ReadsValue inner ('[' :: cs) (.list vs) rest
  | object {cs mid rest : List Char} {item : Reader Json} {ms : List (String × Json)} :
      inner = some item → Yields (foldMembers (keepMember item) []) cs (some ms.reverse) mid →
      Yields endObject mid (some ()) rest → ReadsValue inner ('\x7b' :: cs) (.object ms) rest

/-- What is kept of a member is the value behind its colon. -/
theorem of_keepMember {item : Reader Json} {name : String} {read ms : List (String × Json)}
    (h : Yields (keepMember item name read) cs (some ms) rest) :
    ∃ v inside, Yields colon cs (some ()) inside ∧ Yields item inside (some v) rest ∧
      ms = (name, v) :: read := by
  rw [keepMember] at h
  obtain ⟨_, inside, hcolon, h⟩ := h.of_bind
  obtain ⟨v, _, hv, h⟩ := h.of_bind
  obtain ⟨rfl, rfl⟩ := h.of_pure
  exact ⟨v, inside, hcolon, hv, rfl⟩

/-- The reader of a value looks at the first character that is not blank. -/
theorem dropBlanks_of_peekValue {c : Char} (h : Yields peekValue cs (some c) mid) :
    ∃ more, mid = c :: more ∧ cs.dropWhile isBlank = c :: more := by
  rw [peekValue] at h
  obtain ⟨c?, text, htoken, h⟩ := h.of_bind
  obtain ⟨rfl, rfl⟩ := yields_peekToken?_iff.mp htoken
  split at h
  next heq =>
    obtain ⟨rfl, rfl⟩ := h.of_pure
    obtain ⟨more, hmore⟩ := List.head?_eq_some_iff.mp heq
    exact ⟨more, hmore, hmore⟩
  next => cases h

/-- Behind the character that tells what the value is, the rest of it is read. -/
theorem Yields.of_skipReturn {r : Reader α} {f : α → β} {c : Char} {b : β}
    (h : Yields (do
      skip
      return f (← r)) (c :: cs) (some b) rest) : ∃ a, Yields r cs (some a) rest ∧ b = f a := by
  obtain ⟨_, _, ⟨⟩, h⟩ := h.of_bind
  obtain ⟨a, _, ha, h⟩ := h.of_bind
  obtain ⟨rfl, rfl⟩ := h.of_pure
  exact ⟨a, ha, rfl⟩

theorem Yields.skipReturn {r : Reader α} {f : α → β} {c : Char} {a : α}
    (h : Yields r cs (some a) rest) :
    Yields (do
      skip
      return f (← r)) (c :: cs) (some (f a)) rest :=
  yields_skip.andThen (h.andThen (.pure _ _))

theorem readsValue_of_valueWithin {inner : Option (Reader Json)} {v : Json}
    (h : Yields (valueWithin inner) cs (some v) rest) :
    ReadsValue inner (cs.dropWhile isBlank) v rest := by
  unfold valueWithin at h
  obtain ⟨c, mid, hpeek, h⟩ := h.of_bind
  obtain ⟨more, rfl, hcs⟩ := dropBlanks_of_peekValue hpeek
  rw [hcs]
  have h := h.of_located
  -- the first character decides, in the order in which the reader looks for it
  split at h
  · obtain ⟨_, hword, rfl⟩ := h.of_skipReturn
    exact .null hword
  · obtain ⟨_, hword, rfl⟩ := h.of_skipReturn
    exact .yes hword
  · obtain ⟨_, hword, rfl⟩ := h.of_skipReturn
    exact .no hword
  · obtain ⟨s, hs, rfl⟩ := h.of_skipReturn
    exact .string hs
  · cases inner with
    | none => cases h
    | some item =>
        obtain ⟨vs, hvs, rfl⟩ := h.of_skipReturn
        obtain ⟨after, hitems, hend⟩ := hvs.of_closedBy
        exact .list rfl hitems hend
  · cases inner with
    | none => cases h
    | some item =>
        obtain ⟨ms, hms, rfl⟩ := h.of_skipReturn
        obtain ⟨after, hmembers, hend⟩ := hms.of_closedBy
        refine .object rfl ?_ hend
        rw [List.reverse_reverse]
        exact hmembers
  · split at h
    next hbegins =>
      obtain ⟨n, _, hn, h⟩ := h.of_bind
      obtain ⟨rfl, rfl⟩ := h.of_pure
      exact .number hbegins hn
    next => cases h

theorem ReadsValue.yields_valueWithin {inner : Option (Reader Json)} {v : Json}
    (h : ReadsValue inner (cs.dropWhile isBlank) v rest) :
    Yields (valueWithin inner) cs (some v) rest := by
  -- each rule names the character that it begins with, so the match reduces
  generalize hcs : cs.dropWhile isBlank = text at h
  unfold valueWithin
  cases h with
  | null hword | yes hword | no hword =>
      exact (yields_peekValue_of_dropBlanks hcs).andThen (Yields.located hword.skipReturn)
  | string hs => exact (yields_peekValue_of_dropBlanks hcs).andThen (Yields.located hs.skipReturn)
  | @number cs rest c n hbegins hn =>
      refine (yields_peekValue_of_dropBlanks hcs).andThen (Yields.located ?_)
      split
      case h_7 =>
        rw [if_pos hbegins]
        exact hn.andThen (.pure _ _)
      all_goals exact absurd hbegins (by decide)
  | list hinner hitems hend =>
      subst hinner
      exact (yields_peekValue_of_dropBlanks hcs).andThen
        (Yields.located (hitems.closedBy hend).skipReturn)
  | @object _ _ _ _ ms hinner hmembers hend =>
      subst hinner
      rw [← List.reverse_reverse ms]
      exact (yields_peekValue_of_dropBlanks hcs).andThen
        (Yields.located (hmembers.closedBy hend).skipReturn)

theorem yields_valueWithin_iff {inner : Option (Reader Json)} {v : Json} :
    Yields (valueWithin inner) cs (some v) rest ↔
      ReadsValue inner (cs.dropWhile isBlank) v rest :=
  ⟨readsValue_of_valueWithin, ReadsValue.yields_valueWithin⟩

/-! ### How much is read of a value -/

namespace Consumes

theorem items {item : Reader α} (hitem : Consumes item) : Consumes (Reader.items item) := by
  have hrest : ∀ fuel first read, Consumes (itemsRest item fuel first read) := by
    intro fuel
    induction fuel with
    | zero => exact fun _ _ => .pure _
    | succ fuel ih =>
        intro first read
        refine (hasItem first).andThen fun more => ?_
        split
        · exact hitem.andThen fun a => ih _ _
        · exact .pure _
  exact unread.andThen fun _ => hrest _ _ _

theorem foldMembers {step : String → σ → Reader σ} (hstep : ∀ name s, Consumes (step name s))
    (s : σ) : Consumes (Reader.foldMembers step s) := by
  have hrest : ∀ fuel first s, Consumes (membersRest step fuel first s) := by
    intro fuel
    induction fuel with
    | zero => exact fun _ _ => .pure _
    | succ fuel ih =>
        intro first s
        refine (hasMember first).andThen fun more => ?_
        split
        · exact skip.andThen fun _ => stringBody.andThen fun name =>
            (hstep name s).andThen fun s' => ih _ _
        · exact .pure _
  exact unread.andThen fun _ => hrest _ _ _

theorem keepMember {inner : Reader Json} (hinner : Consumes inner) (name : String)
    (read : List (String × Json)) : Consumes (Reader.keepMember inner name read) :=
  colon.andThen fun _ => hinner.andThen fun _ => .pure _

theorem valueWithin {inner : Option (Reader Json)}
    (hinner : ∀ item, inner = some item → Consumes item) : Consumes (Reader.valueWithin inner) := by
  unfold Reader.valueWithin
  refine peekValue.andThen fun c => .located ?_
  split
  · exact skip.andThen fun _ => (word _).andThen fun _ => .pure _
  · exact skip.andThen fun _ => (word _).andThen fun _ => .pure _
  · exact skip.andThen fun _ => (word _).andThen fun _ => .pure _
  · exact skip.andThen fun _ => stringBody.andThen fun _ => .pure _
  · split
    · exact .failAtNext _
    next item =>
      have hitem := hinner item rfl
      exact skip.andThen fun _ => ((items hitem).closedBy endList).andThen fun _ => .pure _
  · split
    · exact .failAtNext _
    next item =>
      have hitem := hinner item rfl
      have hmembers : Consumes (Reader.foldMembers (Reader.keepMember item) []) :=
        foldMembers (fun name read => keepMember hitem name read) []
      exact skip.andThen fun _ => (hmembers.closedBy endObject).andThen fun _ => .pure _
  · split
    · exact number.andThen fun _ => .pure _
    · exact .failAtNext _

theorem value (depth : Nat) : Consumes (Reader.value depth) := by
  induction depth using Reader.value.induct with
  | case1 | case2 => exact valueWithin nofun
  | case3 depth ih =>
      refine valueWithin ?_
      rintro _ ⟨⟩
      exact ih

end Consumes

/-- Blanks in front of a value do not matter. -/
theorem yields_valueWithin_dropBlanks {inner : Option (Reader Json)} {v : Json} :
    Yields (valueWithin inner) (cs.dropWhile isBlank) (some v) rest ↔
    Yields (valueWithin inner) cs (some v) rest := by
  rw [yields_valueWithin_iff, yields_valueWithin_iff, List.dropWhile_idempotent]

/-! ### Whole texts -/

/-- A whole text is what is read and blanks after it. -/
theorem runOn_eq_ok_iff {r : Reader α} {text : String} {a : α} :
    r.runOn text = .ok a ↔ ∃ rest, Yields r text.toList (some a) rest ∧
    rest.dropWhile isBlank = [] := by
  constructor
  · intro h
    rw [runOn] at h
    split at h
    next b rest hread =>
      cases h
      have hwhole : Yields (wholeText r) text.toList (some a) rest := hread
      rw [wholeText] at hwhole
      obtain ⟨a', mid, ha, hwhole⟩ := hwhole.of_bind
      obtain ⟨c?, after, htoken, hwhole⟩ := hwhole.of_bind
      obtain ⟨rfl, rfl⟩ := yields_peekToken?_iff.mp htoken
      split at hwhole
      next hnone =>
        obtain ⟨rfl, -⟩ := hwhole.of_pure
        exact ⟨mid, ha, List.head?_eq_none_iff.mp hnone⟩
      next => cases hwhole
    next => cases h
  · rintro ⟨rest, hread, hblank⟩
    have htoken : Yields peekToken? rest (some none) [] :=
      yields_peekToken?_iff.mpr ⟨by rw [hblank]; rfl, hblank.symm⟩
    have hwhole : Yields (wholeText r) text.toList (some a) [] :=
      hread.andThen (htoken.andThen (.pure a []))
    rw [runOn, show (wholeText r).run text.toList = _ from hwhole]

end AgentGraph.Json.Reader
