import SyntaxTally.Ignore.Glob

/-!
# Which paths a pattern matches

A pattern is cut at its ends, a trailing `/**` with the last components of the path and a leading `**/` with the
first ones, until what is left is a wildcard pattern. `globMatches_iff_fit` says what this comes to whatever is
cut first: a stretch of the components is left, with at least one component for each trailing `/**` behind it.
-/
namespace SyntaxTally.Ignore

/-! ### Components -/

theorem components_eq_splitOn (path : List Char) : components path = path.splitOn '/' := by
  induction path with
  | nil => rfl
  | cons c rest ih =>
    unfold components
    rw [ih]
    simp only [List.splitOn, List.splitOnP_cons_eq_if_modifyHead, beq_iff_eq]
    split
    · rfl
    · cases parts : rest.splitOnP (· == '/') with
      | nil => exact absurd parts (List.splitOnP_ne_nil _ _)
      | cons first more => rfl

/-- The components of some path: there is one at least, and none has a slash in it. -/
structure AreComponents (parts : List (List Char)) : Prop where
  some : 0 < parts.length
  slashless : ∀ part ∈ parts, '/' ∉ part

theorem areComponents (path : List Char) : AreComponents (components path) := by
  induction path with
  | nil => exact ⟨by simp [components], by simp [components]⟩
  | cons c rest ih =>
    rw [components]
    by_cases slash : c = '/'
    · rw [if_pos slash]
      exact ⟨by simp, by simpa using ih.slashless⟩
    · rw [if_neg slash]
      cases parts : components rest with
      | nil => exact absurd ih.some (by simp [parts])
      | cons first more =>
        have apart := parts ▸ ih.slashless
        refine ⟨by simp, fun part listed => ?_⟩
        rcases List.mem_cons.mp listed with rfl | later
        · have other : ¬ '/' = c := fun same => slash same.symm
          simpa [other] using apart first (by simp)
        · exact apart part (by simp [later])

namespace AreComponents

variable {parts : List (List Char)} (are : AreComponents parts)

include are

theorem components_joined : components (joined parts) = parts := by
  rw [components_eq_splitOn]
  exact List.splitOn_intercalate '/' are.slashless (List.length_pos_iff.mp are.some)

theorem take {n : Nat} (positive : 0 < n) : AreComponents (parts.take n) where
  some := by
    have some := are.some
    rw [List.length_take]
    omega
  slashless part listed := are.slashless part (List.mem_of_mem_take listed)

theorem drop {n : Nat} (fewer : n < parts.length) : AreComponents (parts.drop n) where
  some := by
    rw [List.length_drop]
    omega
  slashless part listed := are.slashless part (List.mem_of_mem_drop listed)

end AreComponents

theorem joined_components (path : List Char) : joined (components path) = path := by
  rw [components_eq_splitOn]
  exact List.intercalate_splitOn '/'

/-! ### One cut -/

theorem isSuffixOf_below_iff {pattern : List Char} :
    below.isSuffixOf pattern = true ↔ ∃ inner, pattern = inner ++ below := by
  rw [List.isSuffixOf_iff_suffix]
  exact exists_congr fun inner => eq_comm

theorem isPrefixOf_anywhere_iff {pattern : List Char} :
    anywhere.isPrefixOf pattern = true ↔ ∃ rest, pattern = anywhere ++ rest := by
  rw [List.isPrefixOf_iff_prefix]
  exact exists_congr fun rest => eq_comm

theorem globMatches_iff_cut {parts : List (List Char)} (are : AreComponents parts) (pattern : List Char) :
    globMatches (joined parts) pattern = true ↔
      wildcardMatches (joined parts) pattern = true ∨
      (∃ inner, pattern = inner ++ below ∧ ∃ n, 0 < n ∧ n < parts.length ∧
        globMatches (joined (parts.take n)) inner = true) ∨
      ∃ rest, pattern = anywhere ++ rest ∧ ∃ n, n < parts.length ∧
        globMatches (joined (parts.drop n)) rest = true := by
  rw [globMatches, are.components_joined, Bool.or_eq_true, Bool.or_eq_true, or_assoc]
  refine or_congr Iff.rfl (or_congr ?_ ?_)
  · by_cases trailing : below.isSuffixOf pattern = true
    · obtain ⟨inner, rfl⟩ := isSuffixOf_below_iff.mp trailing
      have cut : (inner ++ below).take ((inner ++ below).length - 3) = inner := by simp [below]
      simp only [trailing, dite_true, cut, List.any_eq_true, List.mem_map, List.mem_range]
      constructor
      · rintro ⟨n, ⟨m, inside, rfl⟩, fits⟩
        exact ⟨inner, rfl, m + 1, by omega, by omega, fits⟩
      · rintro ⟨other, same, n, positive, inside, fits⟩
        obtain rfl := List.append_cancel_right same
        exact ⟨n, ⟨n - 1, by omega, by omega⟩, fits⟩
    · rw [dif_neg trailing]
      have none : ¬ ∃ inner, pattern = inner ++ below := fun some => trailing (isSuffixOf_below_iff.mpr some)
      simp only [Bool.false_eq_true, false_iff]
      rintro ⟨inner, same, -⟩
      exact none ⟨inner, same⟩
  · by_cases leading : anywhere.isPrefixOf pattern = true
    · obtain ⟨rest, rfl⟩ := isPrefixOf_anywhere_iff.mp leading
      have cut : (anywhere ++ rest).drop 3 = rest := by simp [anywhere]
      simp only [leading, dite_true, cut, List.any_eq_true, List.mem_range]
      constructor
      · rintro ⟨n, inside, fits⟩
        exact ⟨rest, rfl, n, inside, fits⟩
      · rintro ⟨other, same, n, inside, fits⟩
        obtain rfl := List.append_cancel_left same
        exact ⟨n, inside, fits⟩
    · rw [dif_neg leading]
      have none : ¬ ∃ rest, pattern = anywhere ++ rest := fun some => leading (isPrefixOf_anywhere_iff.mpr some)
      simp only [Bool.false_eq_true, false_iff]
      rintro ⟨rest, same, -⟩
      exact none ⟨rest, same⟩

/-! ### All cuts -/

/-- So many leading `**/`, a wildcard pattern, and so many trailing `/**`. -/
def wrapped (leading : Nat) (core : List Char) (trailing : Nat) : List Char :=
  (List.replicate leading anywhere).flatten ++ core ++ (List.replicate trailing below).flatten

theorem wrapped_succ_left (leading : Nat) (core : List Char) (trailing : Nat) :
    wrapped (leading + 1) core trailing = anywhere ++ wrapped leading core trailing := by
  simp [wrapped, List.replicate_succ]

theorem wrapped_succ_right (leading : Nat) (core : List Char) (trailing : Nat) :
    wrapped leading core (trailing + 1) = wrapped leading core trailing ++ below := by
  simp [wrapped, List.replicate_succ']

/-- The components from `first` to before `last` fit the wildcard pattern, those before them stand for the
leading `**/`, and those behind them for the trailing `/**`, of which each takes one at least. -/
structure Fit (parts : List (List Char)) (leading : Nat) (core : List Char) (trailing first last : Nat) :
    Prop where
  nonempty : first < last
  within : last + trailing ≤ parts.length
  fromStart : leading = 0 → first = 0
  toEnd : trailing = 0 → last = parts.length
  fits : wildcardMatches (joined ((parts.take last).drop first)) core = true

namespace Fit

variable {parts : List (List Char)} {core : List Char} {leading trailing first last n : Nat}

theorem uncut (are : AreComponents parts) (fits : wildcardMatches (joined parts) core = true) :
    Fit parts 0 core 0 0 parts.length :=
  ⟨are.some, by omega, fun _ => rfl, fun _ => rfl, by simpa using fits⟩

theorem fits_of_uncut (fit : Fit parts 0 core 0 first last) : wildcardMatches (joined parts) core = true := by
  have fits := fit.fits
  rw [fit.fromStart rfl, fit.toEnd rfl] at fits
  simpa using fits

theorem addTrailing (fewer : n < parts.length) (fit : Fit (parts.take n) leading core trailing first last) :
    Fit parts leading core (trailing + 1) first last := by
  have within := fit.within
  rw [List.length_take] at within
  refine ⟨fit.nonempty, by omega, fit.fromStart, fun none => by omega, ?_⟩
  have fits := fit.fits
  rwa [List.take_take, Nat.min_eq_left (by omega)] at fits

theorem cutTrailing (fit : Fit parts leading core (trailing + 1) first last) :
    Fit (parts.take (last + trailing)) leading core trailing first last := by
  have within := fit.within
  refine ⟨fit.nonempty, ?_, fit.fromStart, fun none => ?_, ?_⟩
  · rw [List.length_take]
    omega
  · rw [List.length_take]
    omega
  · rw [List.take_take, Nat.min_eq_left (by omega)]
    exact fit.fits

theorem addLeading (fit : Fit (parts.drop n) leading core trailing first last) :
    Fit parts (leading + 1) core trailing (n + first) (n + last) := by
  have within := fit.within
  have nonempty := fit.nonempty
  rw [List.length_drop] at within
  refine ⟨by omega, by omega, fun none => by omega, fun none => ?_, ?_⟩
  · have ends := fit.toEnd none
    rw [List.length_drop] at ends
    omega
  · have fits := fit.fits
    rwa [List.take_drop, List.drop_drop] at fits

theorem cutLeading (fit : Fit parts (leading + 1) core trailing first last) :
    Fit (parts.drop first) leading core trailing 0 (last - first) := by
  have within := fit.within
  have nonempty := fit.nonempty
  refine ⟨by omega, ?_, fun _ => rfl, fun none => ?_, ?_⟩
  · rw [List.length_drop]
    omega
  · rw [List.length_drop, fit.toEnd none]
  · rw [List.take_drop, List.drop_drop, Nat.add_sub_cancel' (by omega)]
    exact fit.fits

end Fit

theorem exists_fit {parts : List (List Char)} {pattern : List Char} (are : AreComponents parts)
    (glob : globMatches (joined parts) pattern = true) :
    ∃ leading core trailing first last, pattern = wrapped leading core trailing ∧
      Fit parts leading core trailing first last := by
  induction size : pattern.length using Nat.strongRecOn generalizing parts pattern with
  | ind long ih =>
    rcases (globMatches_iff_cut are pattern).mp glob with
      fits | ⟨inner, rfl, n, positive, fewer, inside⟩ | ⟨rest, rfl, n, fewer, inside⟩
    · exact ⟨0, pattern, 0, 0, parts.length, by simp [wrapped], .uncut are fits⟩
    · have shorter : inner.length < long := by
        rw [← size, List.length_append, show below.length = 3 from rfl]
        omega
      obtain ⟨leading, core, trailing, first, last, rfl, fit⟩ := ih _ shorter (are.take positive) inside rfl
      exact ⟨leading, core, trailing + 1, first, last, (wrapped_succ_right ..).symm, fit.addTrailing fewer⟩
    · have shorter : rest.length < long := by
        rw [← size, List.length_append, show anywhere.length = 3 from rfl]
        omega
      obtain ⟨leading, core, trailing, first, last, rfl, fit⟩ := ih _ shorter (are.drop fewer) inside rfl
      exact ⟨leading + 1, core, trailing, n + first, n + last, (wrapped_succ_left ..).symm, fit.addLeading⟩

theorem globMatches_of_fit {parts : List (List Char)} {core : List Char} {leading trailing first last : Nat}
    (are : AreComponents parts) (fit : Fit parts leading core trailing first last) :
    globMatches (joined parts) (wrapped leading core trailing) = true := by
  rw [globMatches_iff_cut are]
  induction trailing generalizing parts first last with
  | succ trailing ih =>
    have within := fit.within
    have nonempty := fit.nonempty
    have shorter := are.take (show 0 < last + trailing by omega)
    refine .inr (.inl ⟨_, wrapped_succ_right .., last + trailing, by omega, by omega, ?_⟩)
    exact (globMatches_iff_cut shorter _).mpr (ih shorter fit.cutTrailing)
  | zero =>
    induction leading generalizing parts first last with
    | zero => exact .inl (by simpa [wrapped] using fit.fits_of_uncut)
    | succ leading ih =>
      have within := fit.within
      have nonempty := fit.nonempty
      have shorter := are.drop (show first < parts.length by omega)
      refine .inr (.inr ⟨_, wrapped_succ_left .., first, by omega, ?_⟩)
      exact (globMatches_iff_cut shorter _).mpr (ih shorter fit.cutLeading)

/-- A pattern matches a path just if it is a wildcard pattern in some number of leading `**/` and trailing `/**`,
and a stretch of the path's components fits it that begins at the first component unless there is a leading `**/`,
and ends at the last one unless there is a trailing `/**`; each of these takes one component at least. -/
theorem globMatches_iff_fit (path pattern : List Char) :
    globMatches path pattern = true ↔
      ∃ leading core trailing first last,
        pattern = (List.replicate leading ['*', '*', '/']).flatten ++ core ++
          (List.replicate trailing ['/', '*', '*']).flatten ∧
        first < last ∧ last + trailing ≤ (components path).length ∧
        (leading = 0 → first = 0) ∧ (trailing = 0 → last = (components path).length) ∧
        wildcardMatches (joined (((components path).take last).drop first)) core = true := by
  have are := areComponents path
  constructor
  · intro glob
    rw [← joined_components path] at glob
    obtain ⟨leading, core, trailing, first, last, written, fit⟩ := exists_fit are glob
    exact ⟨leading, core, trailing, first, last, written, fit.nonempty, fit.within, fit.fromStart, fit.toEnd,
      fit.fits⟩
  · rintro ⟨leading, core, trailing, first, last, rfl, nonempty, within, fromStart, toEnd, fits⟩
    have glob := globMatches_of_fit are ⟨nonempty, within, fromStart, toEnd, fits⟩
    rwa [joined_components] at glob

end SyntaxTally.Ignore
