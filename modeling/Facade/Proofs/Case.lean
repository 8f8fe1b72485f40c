import Facade.Text.Case
import Mathlib.Data.List.Basic

/-!
This module contains the proofs about changes of case: which characters they bring into a text, and
that a character in upper case is its own upper case.
-/

namespace Facade.Text

def Run.members (r : Run) : List Nat :=
  (List.range ((r.last - r.first) / r.step + 1)).map (r.first + r.step * ·)

theorem Run.mem_members {r : Run} {n : Nat} (h : r.contains n = true) : n ∈ r.members := by
  simp only [contains, Bool.and_eq_true, decide_eq_true_eq, beq_iff_eq] at h
  obtain ⟨⟨hfirst, hlast⟩, hstep⟩ := h
  rw [members, List.mem_map]
  refine ⟨(n - r.first) / r.step, ?_, ?_⟩
  . rw [List.mem_range, Nat.lt_succ_iff]
    exact Nat.div_le_div_right (Nat.sub_le_sub_right hlast _)
  . rw [Nat.mul_div_cancel' (Nat.dvd_of_mod_eq_zero hstep), Nat.add_sub_cancel' hfirst]

theorem Run.bounds_of_mem_members {r : Run} (h : r.first ≤ r.last) {n : Nat} (hn : n ∈ r.members) :
    r.first ≤ n ∧ n ≤ r.last := by
  obtain ⟨i, hi, rfl⟩ := List.mem_map.mp hn
  rw [List.mem_range, Nat.lt_succ_iff] at hi
  have hspan : r.step * i ≤ r.last - r.first :=
    Nat.le_trans (Nat.mul_le_mul_left r.step hi) (Nat.mul_div_le _ _)
  omega

section

variable (shifts : List ShiftedRun) (expansions : List (Nat × List Nat))

def replaced : List Nat :=
  shifts.flatMap (·.members) ++ expansions.map Prod.fst

def starts : List Nat :=
  shifts.flatMap (fun run => run.members.map fun n : Nat => (n + run.shift).toNat) ++
    expansions.map fun e => e.2.headD 0

def followers : List Nat :=
  expansions.flatMap fun e => e.2.tail

/-- Checks for whole runs that no replacement is one of `first`, ..., `last`. -/
def avoids (first last : Nat) : Bool :=
  (shifts.all fun run =>
    run.first ≤ run.last && 0 ≤ run.first + run.shift &&
      (run.last + run.shift < first || last < run.first + run.shift)) &&
  expansions.all fun e => e.2.all fun code => code < first || last < code

end

/-- A set of code points, as the bits of a number. -/
def bits (codes : List Nat) : Nat :=
  codes.foldr (fun code set => set ||| 1 <<< code) 0

theorem testBit_bits {codes : List Nat} {n : Nat} (h : n ∈ codes) : (bits codes).testBit n = true := by
  induction codes with
  | nil => cases h
  | cons code codes ih =>
    rw [bits, List.foldr_cons, ← bits, Nat.testBit_or]
    cases h with
    | head => simp
    | tail _ h => rw [ih h, Bool.true_or]

/-- Sets whose numbers have no bit in common have no member in common. -/
theorem not_mem_of_land_bits {codes codes' : List Nat} (h : bits codes &&& bits codes' = 0) {n : Nat}
    (hn : n ∈ codes) : n ∉ codes' := by
  intro hn'
  have hbit : (bits codes &&& bits codes').testBit n = true := by
    rw [Nat.testBit_and, testBit_bits hn, testBit_bits hn', Bool.true_and]
  rw [h, Nat.zero_testBit] at hbit
  cases hbit

theorem toNat_ofNat (n : Nat) : (Char.ofNat n).toNat = n ∨ (Char.ofNat n).toNat = 0 := by
  unfold Char.ofNat
  by_cases hvalid : n.isValidChar
  . rw [dif_pos hvalid]
    exact .inl rfl
  . rw [dif_neg hvalid]
    exact .inr rfl

variable {shifts : List ShiftedRun} {expansions : List (Nat × List Nat)} {c d : Char}

/-- What a table gives for a character starts with a replacement, or is the character itself. -/
theorem recase_cases (hfull : ∀ e ∈ expansions, e.2 ≠ []) (c : Char) :
    (∃ code ∈ starts shifts expansions, ∃ codes ⊆ followers expansions,
      recase shifts expansions c = Char.ofNat code :: codes.map Char.ofNat) ∨
    recase shifts expansions c = [c] := by
  unfold recase
  cases hcodes : expansions.lookup c.toNat with
  | some codes =>
    left
    obtain ⟨before, after, heq, -⟩ := List.lookup_eq_some_iff.mp hcodes
    have hmem : (c.toNat, codes) ∈ expansions := by simp [heq]
    cases codes with
    | nil => exact absurd rfl (hfull _ hmem)
    | cons code codes =>
      refine ⟨code, ?_, codes, ?_, rfl⟩
      . exact List.mem_append_right _ (List.mem_map.mpr ⟨_, hmem, rfl⟩)
      . exact fun n hn => List.mem_flatMap.mpr ⟨_, hmem, hn⟩
  -- characters that have no expansion are shifted with their run, or else kept
  | none =>
    cases hrun : shifts.find? (·.contains c.toNat) with
    | some run =>
      left
      refine ⟨(c.toNat + run.shift).toNat, ?_, [], List.nil_subset _, rfl⟩
      apply List.mem_append_left
      rw [List.mem_flatMap]
      refine ⟨run, List.mem_of_find?_eq_some hrun, List.mem_map.mpr ⟨c.toNat, ?_, rfl⟩⟩
      exact Run.mem_members (List.find?_some hrun :)
    | none => exact .inr rfl

theorem lt_or_lt_of_avoids {first last code : Nat} (hfull : ∀ e ∈ expansions, e.2 ≠ [])
    (h : avoids shifts expansions first last = true)
    (hcode : code ∈ starts shifts expansions ++ followers expansions) :
    code < first ∨ last < code := by
  simp only [avoids, Bool.and_eq_true, Bool.or_eq_true, List.all_eq_true, decide_eq_true_eq] at h
  obtain ⟨hshifts, hexpansions⟩ := h
  obtain hstart | hfollower := List.mem_append.mp hcode
  . obtain hshifted | hexpanded := List.mem_append.mp hstart
    . obtain ⟨run, hrun, hmem⟩ := List.mem_flatMap.mp hshifted
      obtain ⟨n, hn, rfl⟩ := List.mem_map.mp hmem
      obtain ⟨⟨hle, hfirst⟩, hout⟩ := hshifts run hrun
      obtain ⟨hfrom, hto⟩ := Run.bounds_of_mem_members hle hn
      omega
    . obtain ⟨e, he, rfl⟩ := List.mem_map.mp hexpanded
      cases hcodes : e.2 with
      | nil => exact absurd hcodes (hfull e he)
      | cons code codes => exact hexpansions e he code (hcodes ▸ List.mem_cons_self)
  . obtain ⟨e, he, hmem⟩ := List.mem_flatMap.mp hfollower
    exact hexpansions e he code (List.mem_of_mem_tail hmem)

theorem recase_of_not_mem (h : c.toNat ∉ replaced shifts expansions) :
    recase shifts expansions c = [c] := by
  rw [replaced, List.mem_append, not_or] at h
  have hlookup : expansions.lookup c.toNat = none := by
    rw [List.lookup_eq_none_iff]
    intro e he
    rw [bne_iff_ne]
    rintro heq
    exact h.2 (heq ▸ List.mem_map_of_mem he)
  have hfind : shifts.find? (·.contains c.toNat) = none := by
    rw [List.find?_eq_none]
    intro run hrun hcontains
    exact h.1 (List.mem_flatMap.mpr ⟨run, hrun, Run.mem_members hcontains⟩)
  unfold recase
  rw [hlookup, hfind]

theorem upperExpansions_ne_nil : ∀ e ∈ upperExpansions, e.2 ≠ [] := by
  decide

set_option maxRecDepth 10000 in
theorem starts_upper_not_replaced : bits (0 :: starts upperShifts upperExpansions) &&&
    bits (replaced upperShifts upperExpansions) = 0 := by
  decide

theorem upper_cases (c : Char) : ∃ d ds, upper c = d :: ds ∧ upper d = [d] := by
  obtain ⟨code, hcode, codes, -, heq⟩ | heq := recase_cases upperExpansions_ne_nil c
  . refine ⟨_, _, heq, ?_⟩
    apply recase_of_not_mem
    apply not_mem_of_land_bits starts_upper_not_replaced
    obtain htoNat | htoNat := toNat_ofNat code
    . rw [htoNat]
      exact List.mem_cons_of_mem _ hcode
    . rw [htoNat]
      exact List.mem_cons_self
  . exact ⟨c, [], heq, heq⟩

theorem mem_recase (hfull : ∀ e ∈ expansions, e.2 ≠ []) (h : d ∈ recase shifts expansions c) :
    d = c ∨ d.toNat = 0 ∨ d.toNat ∈ starts shifts expansions ++ followers expansions := by
  have hcode : ∀ code ∈ starts shifts expansions ++ followers expansions,
      (Char.ofNat code).toNat = 0 ∨
        (Char.ofNat code).toNat ∈ starts shifts expansions ++ followers expansions := by
    intro code hcode
    obtain htoNat | htoNat := toNat_ofNat code
    . rw [htoNat]
      exact .inr hcode
    . exact .inl htoNat
  obtain ⟨code, hstart, codes, hcodes, heq⟩ | heq := recase_cases hfull c
  . rw [heq] at h
    right
    obtain rfl | h := List.mem_cons.mp h
    . exact hcode code (List.mem_append_left _ hstart)
    . obtain ⟨follower, hfollower, rfl⟩ := List.mem_map.mp h
      exact hcode follower (List.mem_append_right _ (hcodes hfollower))
  . rw [heq, List.mem_singleton] at h
    exact .inl h

def isMark (c : Char) : Bool :=
  decide (0 < c.toNat) && (decide (c.toNat < 65) || c.toNat == 95)

theorem upper_brings_no_mark :
    ∀ code ∈ starts upperShifts upperExpansions ++ followers upperExpansions,
      65 ≤ code ∧ code ≠ 95 := by
  have hlow : avoids upperShifts upperExpansions 0 64 = true := by decide
  have hmark : avoids upperShifts upperExpansions 95 95 = true := by decide
  intro code hcode
  have hnot := lt_or_lt_of_avoids upperExpansions_ne_nil hlow hcode
  have hnot' := lt_or_lt_of_avoids upperExpansions_ne_nil hmark hcode
  omega

theorem eq_of_mem_upper_of_not_mem (hzero : d.toNat ≠ 0)
    (hbrought : d.toNat ∉ starts upperShifts upperExpansions ++ followers upperExpansions)
    (h : d ∈ upper c) : d = c := by
  obtain rfl | hnull | hcode := mem_recase upperExpansions_ne_nil h
  . rfl
  . exact absurd hnull hzero
  . exact absurd hcode hbrought

/-- A mark is the replacement of no other character. -/
theorem eq_of_mem_upper (hmark : isMark d = true) (h : d ∈ upper c) : d = c := by
  simp only [isMark, Bool.and_eq_true, Bool.or_eq_true, decide_eq_true_eq, beq_iff_eq] at hmark
  refine eq_of_mem_upper_of_not_mem (by omega) (fun hcode => ?_) h
  have hbrought := upper_brings_no_mark d.toNat hcode
  omega

theorem upper_brings_no_bracket :
    ∀ code ∈ ['[', '`'].map Char.toNat,
      code ≠ 0 ∧ code ∉ starts upperShifts upperExpansions ++ followers upperExpansions := by
  have hbrackets : ∀ code ∈ ['[', '`'].map Char.toNat,
      code ≠ 0 ∧ avoids upperShifts upperExpansions code code = true := by decide
  intro code hcode
  obtain ⟨hzero, havoids⟩ := hbrackets code hcode
  refine ⟨hzero, fun hmem => ?_⟩
  have hnot := lt_or_lt_of_avoids upperExpansions_ne_nil havoids hmem
  omega

theorem lowerExpansions_ne_nil : ∀ e ∈ lowerExpansions, e.2 ≠ [] := by
  decide

theorem exists_lower (c : Char) : ∃ d ds, lower c = d :: ds := by
  obtain ⟨code, -, codes, -, heq⟩ | heq := recase_cases lowerExpansions_ne_nil c
  . exact ⟨_, _, heq⟩
  . exact ⟨_, _, heq⟩

theorem lower_brings_no_capital :
    ∀ code ∈ starts lowerShifts lowerExpansions ++ followers lowerExpansions,
      code < 65 ∨ 90 < code := by
  have havoids : avoids lowerShifts lowerExpansions 65 90 = true := by decide
  exact fun code => lt_or_lt_of_avoids lowerExpansions_ne_nil havoids

theorem lower_capital :
    ∀ n ∈ List.range' 65 26, lower (Char.ofNat n) = [Char.ofNat (n + 32)] := by
  decide

/-- No letter from `A` to `Z` is left in lower case. -/
theorem not_capital_of_mem_lower (h : d ∈ lower c) : d.toNat < 65 ∨ 90 < d.toNat := by
  obtain rfl | hzero | hcode := mem_recase lowerExpansions_ne_nil h
  . by_contra hcapital
    rw [not_or, Nat.not_lt, Nat.not_lt] at hcapital
    have hmem : d.toNat ∈ List.range' 65 26 := by
      rw [List.mem_range'_1]
      omega
    have hlower := lower_capital d.toNat hmem
    rw [Char.ofNat_toNat] at hlower
    rw [hlower, List.mem_singleton] at h
    have hsame := congrArg Char.toNat h
    obtain htoNat | htoNat := toNat_ofNat (d.toNat + 32) <;> omega
  . omega
  . exact lower_brings_no_capital d.toNat hcode

end Facade.Text
