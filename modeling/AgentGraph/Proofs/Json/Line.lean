import AgentGraph.Proofs.Json.Scan
import AgentGraph.Proofs.Numeric.Shortest

/-!
# Documents on one line

A document in the compact layout has no line feed, whatever texts it holds: in a string a line feed
is escaped, and nothing else writes one (`newline_not_mem_compact`).
-/

namespace AgentGraph.Json

open Numeric

/-! ### Numbers -/

theorem newline_not_mem_digits {digits : List Char} (h : ∀ c ∈ digits, c.isDigit = true) :
    '\n' ∉ digits :=
  fun hmem => absurd (h _ hmem) (by decide)

theorem newline_not_mem_positional {d : Decimal} (hdigits : '\n' ∉ d.digits) :
    '\n' ∉ NumberLayout.positional d := by
  have hzeros : ∀ n, '\n' ∉ List.replicate n '0' :=
    fun n h => absurd (List.eq_of_mem_replicate h) (by decide)
  unfold NumberLayout.positional
  split
  · exact List.not_mem_cons_of_ne_of_not_mem (by decide)
      (List.not_mem_cons_of_ne_of_not_mem (by decide) (List.not_mem_append (hzeros _) hdigits))
  · have hpadded := List.not_mem_append hdigits (hzeros (d.exponent.toNat + 1 - d.digits.length))
    refine List.not_mem_append (fun h => hpadded (List.mem_of_mem_take h))
      (List.not_mem_cons_of_ne_of_not_mem (by decide) ?_)
    split
    · decide
    · exact fun h => hpadded (List.mem_of_mem_drop h)

theorem newline_not_mem_scientific {d : Decimal} (hdigits : '\n' ∉ d.digits) :
    '\n' ∉ NumberLayout.scientific d := by
  have hexponent := newline_not_mem_digits fun _ => isDigit_decimalDigits (n := d.exponent.natAbs)
  have hsign : '\n' ≠ if d.exponent < 0 then '-' else '+' := by split <;> decide
  refine List.not_mem_append ?_ (List.not_mem_cons_of_ne_of_not_mem (by decide)
    (List.not_mem_cons_of_ne_of_not_mem hsign hexponent))
  -- the point stands behind the first digit
  split
  · exact List.not_mem_nil
  · next heq => rwa [heq] at hdigits
  · next heq =>
    rw [heq, List.mem_cons, not_or] at hdigits
    exact List.not_mem_cons_of_ne_of_not_mem hdigits.1
      (List.not_mem_cons_of_ne_of_not_mem (by decide) hdigits.2)

theorem newline_not_mem_decimal {w : Width} {x : Binary w} {text : String}
    (h : x.decimal? = some text) : '\n' ∉ text.toList := by
  unfold Binary.decimal? at h
  split at h
  · next s m q _ =>
    cases h
    have hdigits : '\n' ∉ (Shortest.digits w m q).digits :=
      newline_not_mem_digits fun c hc =>
        isDigit_decimalDigits ((List.rdropWhile_prefix _ _).subset hc)
    rw [String.toList_ofList]
    refine List.not_mem_append (by split <;> decide) ?_
    split
    · decide
    · unfold NumberLayout.write
      split
      · exact newline_not_mem_positional hdigits
      · exact newline_not_mem_scientific hdigits
  · cases h

theorem newline_not_mem_text (n : Number) : '\n' ∉ (n.text?.getD "null").toList := by
  cases htext : n.text? with
  | none => decide
  | some text =>
      rw [Option.getD_some]
      cases n with
      | whole a =>
          cases htext
          rw [toList_toString_int]
          exact List.not_mem_append (by split <;> decide)
            (newline_not_mem_digits fun _ => isDigit_decimalDigits)
      | single x => exact newline_not_mem_decimal htext
      | double x => exact newline_not_mem_decimal htext

/-! ### Strings -/

theorem newline_not_mem_escapeChar (c : Char) : '\n' ∉ escapeChar c := by
  by_cases hcontrol : c.toNat < 32
  -- control characters are escaped by their code, checked one by one
  · have hall : ∀ n < 32, '\n' ∉ escapeChar (Char.ofNat n) := by decide
    rw [← Char.ofNat_toNat c]
    exact hall _ hcontrol
  by_cases hquote : c = '"'
  · rw [hquote]
    decide
  by_cases hbackslash : c = '\\'
  · rw [hbackslash]
    decide
  rw [Reader.escapeChar_plain hcontrol hquote hbackslash, List.mem_singleton]
  rintro rfl
  exact hcontrol (by decide)

variable {rest : List Char}

theorem newline_not_mem_printString (s : String) (hrest : '\n' ∉ rest) :
    '\n' ∉ printString s rest := by
  have hchars : ∀ cs, '\n' ∉ printChars cs ('"' :: rest) := by
    intro cs
    induction cs with
    | nil => exact List.not_mem_cons_of_ne_of_not_mem (by decide) hrest
    | cons c cs ih => exact List.not_mem_append (newline_not_mem_escapeChar c) ih
  exact List.not_mem_cons_of_ne_of_not_mem (by decide) (hchars _)

theorem newline_not_mem_name (name : String) (hrest : '\n' ∉ rest) :
    '\n' ∉ printString name (':' :: rest) :=
  newline_not_mem_printString name (List.not_mem_cons_of_ne_of_not_mem (by decide) hrest)

/-! ### Documents -/

mutual

theorem newline_not_mem_print : ∀ (depth : Nat) (v : Json) {rest : List Char}, '\n' ∉ rest →
    '\n' ∉ print .compact depth v rest
  | _, .null, rest, hrest => by simpa [print] using hrest
  | _, .bool true, rest, hrest => by simpa [print] using hrest
  | _, .bool false, rest, hrest => by simpa [print] using hrest
  | _, .number n, rest, hrest => List.not_mem_append (newline_not_mem_text n) hrest
  | _, .string s, rest, hrest => newline_not_mem_printString s hrest
  | _, .list [], rest, hrest => by simpa [print] using hrest
  -- the compact style breaks no line between the items
  | depth, .list (v :: vs), rest, hrest => by
      have hitem := newline_not_mem_print (depth + 1) v (newline_not_mem_printItems depth vs hrest)
      simpa [print, Style.lineBreak] using hitem
  | _, .object [], rest, hrest => by simpa [print] using hrest
  | depth, .object ((name, v) :: ms), rest, hrest => by
      have hvalue :=
        newline_not_mem_print (depth + 1) v (newline_not_mem_printMembers depth ms hrest)
      exact List.not_mem_cons_of_ne_of_not_mem (by decide) (newline_not_mem_name name hvalue)

theorem newline_not_mem_printItems :
    ∀ (depth : Nat) (vs : List Json) {rest : List Char}, '\n' ∉ rest →
    '\n' ∉ printItems .compact depth vs rest
  | depth, [], rest, hrest => by simpa [printItems, Style.lineBreak] using hrest
  | depth, v :: vs, rest, hrest => by
      have hitem := newline_not_mem_print (depth + 1) v (newline_not_mem_printItems depth vs hrest)
      simpa [printItems, Style.lineBreak] using hitem

theorem newline_not_mem_printMembers :
    ∀ (depth : Nat) (ms : List (String × Json)) {rest : List Char}, '\n' ∉ rest →
    '\n' ∉ printMembers .compact depth ms rest
  | depth, [], rest, hrest => by simpa [printMembers, Style.lineBreak] using hrest
  | depth, (name, v) :: ms, rest, hrest => by
      have hvalue :=
        newline_not_mem_print (depth + 1) v (newline_not_mem_printMembers depth ms hrest)
      exact List.not_mem_cons_of_ne_of_not_mem (by decide) (newline_not_mem_name name hvalue)

end

/-- **A document in the compact layout is on one line.** -/
theorem newline_not_mem_compact (v : Json) : '\n' ∉ v.compact.toList := by
  rw [compact, render, String.toList_ofList]
  exact newline_not_mem_print 0 v List.not_mem_nil

end AgentGraph.Json
