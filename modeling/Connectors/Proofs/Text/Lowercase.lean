import Connectors.Text.Lowercase
import Mathlib.Tactic.IntervalCases

/-!
# Lower case is settled

In ASCII only the capital letters have another lower case, so what is the same for each of them and
its lower case does not depend on the case at all (`toLower_congr`). Outside ASCII the lower case
comes from a table of runs, and one character may have two.

A character that is the lower case of another one has no lower case but itself
(`lowerChar_of_mem_lowerChar`). For the table this is a comparison of runs: the lower case
characters of a run lie before or after the upper case ones of each run, or between them where the
spacing is the same (`CaseRun.Misses`). `İ` and the capitals of ASCII are compared as runs of their
own.
-/

set_option autoImplicit false
set_option relaxedAutoImplicit false

namespace Connectors

/-! ### ASCII -/

/-- The capital letters of ASCII. -/
def capitals : List Char :=
  ['A', 'B', 'C', 'D', 'E', 'F', 'G', 'H', 'I', 'J', 'K', 'L', 'M', 'N', 'O', 'P', 'Q', 'R', 'S',
    'T', 'U', 'V', 'W', 'X', 'Y', 'Z']

/-- Only capital letters have another lower case in ASCII. -/
theorem mem_capitals_or_toLower_eq (c : Char) : c ∈ capitals ∨ c.toLower = c := by
  by_cases hc : c.val ≥ 'A'.val ∧ c.val ≤ 'Z'.val
  · left
    have hlow : 65 ≤ c.toNat := hc.1
    have hhigh : c.toNat ≤ 90 := hc.2
    rw [← Char.ofNat_toNat c]
    generalize c.toNat = code at hlow hhigh
    interval_cases code <;> decide
  · exact .inr (dif_neg hc)

/-- What is the same for each capital letter and its lower case does not depend on the case. -/
theorem toLower_congr {α : Type} [DecidableEq α] {f : Char → α}
    (hcapitals : capitals.all (fun c ↦ f c.toLower = f c) = true) (c : Char) :
    f c.toLower = f c := by
  rcases mem_capitals_or_toLower_eq c with hc | hc
  · simpa using List.all_eq_true.mp hcapitals c hc
  · rw [hc]

namespace Text

theorem lowerChar_toLower (c : Char) : lowerChar c.toLower = lowerChar c :=
  toLower_congr (by decide) c

theorem sameAscii_iff {a b : String} : sameAscii a b = true ↔ lowerAscii a = lowerAscii b := by
  simp [sameAscii]

/-- All characters of a text are in ASCII. -/
def IsAscii (text : String) : Prop :=
  ∀ c ∈ text.toList, c.toNat < 0x80

instance (text : String) : Decidable (IsAscii text) :=
  List.decidableBAll (fun c : Char ↦ c.toNat < 0x80) text.toList

theorem lowerChar_of_ascii {c : Char} (hc : c.toNat < 0x80) : lowerChar c = [c.toLower] :=
  if_pos hc

theorem flatMap_lowerChar_of_ascii {cs : List Char} (hcs : ∀ c ∈ cs, c.toNat < 0x80) :
    cs.flatMap lowerChar = cs.map Char.toLower := by
  induction cs with
  | nil => rfl
  | cons c cs ih =>
    obtain ⟨hc, hrest⟩ := List.forall_mem_cons.mp hcs
    rw [List.flatMap_cons, lowerChar_of_ascii hc, ih hrest]
    rfl

/-! ### Runs -/

namespace CaseRun

variable {run other : CaseRun} {code lower place : Nat}

/-- The last upper case code point of a run. -/
def last (run : CaseRun) : Nat :=
  run.first + (run.count - 1) * run.stride

/-- The lower case of the last one. -/
def lastTarget (run : CaseRun) : Nat :=
  run.target + (run.count - 1) * run.stride

/-- A code point with a lower case in a run stands at a place of the run, and its lower case at the
same place among the lower case ones. -/
theorem exists_of_lower? (hlower : run.lower? code = some lower) : ∃ place < run.count,
    code = run.first + place * run.stride ∧ lower = run.target + place * run.stride := by
  unfold lower? at hlower
  split_ifs at hlower with hmem
  obtain ⟨hfirst, hend, hstep⟩ := hmem
  have hcancel : (code - run.first) / run.stride * run.stride = code - run.first :=
    Nat.div_mul_cancel (Nat.dvd_of_mod_eq_zero hstep)
  refine ⟨(code - run.first) / run.stride, ?_, ?_, ?_⟩
  · apply Nat.div_lt_of_lt_mul
    rw [Nat.mul_comm]
    omega
  · omega
  · rw [hcancel]
    exact (Option.some.inj hlower).symm

theorem place_le_last (hplace : place < run.count) :
    place * run.stride ≤ (run.count - 1) * run.stride :=
  Nat.mul_le_mul_right run.stride (by omega)

/-- Whether no lower case code point of a run is an upper case one of another: they lie before
these, or after them, or between them. -/
def misses (run other : CaseRun) : Bool :=
  Nat.blt run.lastTarget other.first || Nat.blt other.last run.target ||
    (run.count == 1 || run.stride == other.stride) &&
      run.target % other.stride != other.first % other.stride

theorem misses_iff : run.misses other = true ↔
    run.lastTarget < other.first ∨ other.last < run.target ∨
      (run.count = 1 ∨ run.stride = other.stride) ∧
        run.target % other.stride ≠ other.first % other.stride := by
  simp [misses, or_assoc]

theorem lower?_eq_none_of_misses (hmisses : run.misses other = true) (hplace : place < run.count) :
    other.lower? (run.target + place * run.stride) = none := by
  by_contra hsome
  obtain ⟨lower, hlower⟩ := Option.ne_none_iff_exists'.mp hsome
  obtain ⟨position, hposition, hcode, -⟩ := exists_of_lower? hlower
  have hlast := place_le_last hplace
  have hlast' := place_le_last hposition
  rcases misses_iff.mp hmisses with hbefore | hafter | ⟨hspacing, hbetween⟩
  · unfold lastTarget at hbefore
    omega
  · unfold last at hafter
    omega
  · -- The two runs are spaced alike, so all of one lies between the places of the other.
    have hmod : (run.target + place * run.stride) % other.stride = other.first % other.stride := by
      rw [hcode, Nat.add_mul_mod_self_right]
    apply hbetween
    rcases hspacing with hone | hstride
    · obtain rfl : place = 0 := by omega
      simpa using hmod
    · rw [hstride, Nat.add_mul_mod_self_right] at hmod
      exact hmod

/-- The lower case code points of a run are characters, and come after the capitals of ASCII. -/
def Proper (run : CaseRun) : Prop :=
  0x61 ≤ run.target ∧
    (run.lastTarget < 0xD800 ∨ 0xE000 ≤ run.target ∧ run.lastTarget < 0x110000)

instance (run : CaseRun) : Decidable run.Proper :=
  inferInstanceAs (Decidable (_ ∧ _))

theorem Proper.toNat_ofNat (hproper : run.Proper) (hplace : place < run.count) :
    (Char.ofNat (run.target + place * run.stride)).toNat = run.target + place * run.stride := by
  have hlast := place_le_last hplace
  obtain ⟨-, hvalid⟩ := hproper
  unfold lastTarget at hvalid
  have hchar : (run.target + place * run.stride).isValidChar := by
    unfold Nat.isValidChar
    omega
  rw [Char.ofNat, dif_pos hchar]
  rfl

end CaseRun

/-- The capitals of ASCII and `İ`, as runs. -/
def otherRuns : List CaseRun :=
  [⟨0x41, 26, 1, 0x61⟩, ⟨0x130, 1, 1, 0x69⟩]

theorem proper_of_mem_caseRuns : ∀ run ∈ caseRuns, run.Proper := by
  decide +kernel

theorem misses_caseRuns :
    caseRuns.all (fun run ↦ (otherRuns ++ caseRuns).all run.misses) = true := by
  decide +kernel

/-! ### Characters -/

/-- A character that stands in no run is its own lower case. -/
theorem lowerChar_eq_self {c : Char}
    (hnone : ∀ run ∈ otherRuns ++ caseRuns, run.lower? c.toNat = none) : lowerChar c = [c] := by
  obtain ⟨hother, hruns⟩ := List.forall_mem_append.mp hnone
  unfold lowerChar
  split_ifs with hascii hdotted
  · rcases mem_capitals_or_toLower_eq c with hcapital | hsame
    · have hstands :
          capitals.all (fun c ↦ CaseRun.lower? ⟨0x41, 26, 1, 0x61⟩ c.toNat ≠ none) = true := by
        decide
      have hsome := List.all_eq_true.mp hstands c hcapital
      exact absurd (hother ⟨0x41, 26, 1, 0x61⟩ (by simp [otherRuns])) (of_decide_eq_true hsome)
    · rw [hsame]
  · have hstands := hother ⟨0x130, 1, 1, 0x69⟩ (by simp [otherRuns])
    rw [hdotted] at hstands
    cases hstands
  · rw [List.findSome?_eq_none_iff.mpr hruns]

/-- The lower case of a character is that by the rule of ASCII, which keeps all other characters, or
the two characters for `İ`, or stands in a run. -/
theorem lowerChar_cases (c : Char) : lowerChar c = [c.toLower] ∨
    lowerChar c = ['i', Char.ofNat 0x307] ∨ ∃ run ∈ caseRuns, ∃ place < run.count,
      lowerChar c = [Char.ofNat (run.target + place * run.stride)] := by
  by_cases hascii : c.toNat < 0x80
  · exact .inl (lowerChar_of_ascii hascii)
  · by_cases hdotted : c.toNat = 0x130
    · exact .inr (.inl (by rw [lowerChar, if_neg hascii, if_pos hdotted]))
    · cases hfound : caseRuns.findSome? (·.lower? c.toNat) with
      | none =>
        have hsame : c.toLower = c := by
          refine (mem_capitals_or_toLower_eq c).resolve_left fun hcapital ↦ hascii ?_
          have hsmall : capitals.all (fun c ↦ c.toNat < 0x80) = true := by decide
          exact of_decide_eq_true (List.all_eq_true.mp hsmall c hcapital)
        left
        rw [lowerChar, if_neg hascii, if_neg hdotted, hfound, hsame]
      | some lower =>
        obtain ⟨run, hrun, hlower⟩ := List.exists_of_findSome?_eq_some hfound
        obtain ⟨place, hplace, -, rfl⟩ := CaseRun.exists_of_lower? hlower
        refine .inr (.inr ⟨run, hrun, place, hplace, ?_⟩)
        rw [lowerChar, if_neg hascii, if_neg hdotted, hfound]

/-- The lower case of a character is lower case. -/
theorem lowerChar_of_mem_lowerChar {c d : Char} (hd : d ∈ lowerChar c) : lowerChar d = [d] := by
  rcases lowerChar_cases c with hc | hc | ⟨run, hrun, place, hplace, hc⟩
  · rw [hc, List.mem_singleton] at hd
    rw [hd, lowerChar_toLower, hc]
  · rw [hc, List.mem_cons, List.mem_singleton] at hd
    rcases hd with rfl | rfl <;> decide +kernel
  · -- Whatever comes from a run misses every run, so it is the lower case of itself.
    rw [hc, List.mem_singleton] at hd
    apply lowerChar_eq_self
    intro other hother
    have hmisses : run.misses other = true :=
      List.all_eq_true.mp (List.all_eq_true.mp misses_caseRuns run hrun) other hother
    rw [hd, (proper_of_mem_caseRuns run hrun).toNat_ofNat hplace]
    exact CaseRun.lower?_eq_none_of_misses hmisses hplace

end Text

end Connectors
