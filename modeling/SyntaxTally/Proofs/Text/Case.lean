import Mathlib.Data.List.Forall2
import SyntaxTally.Proofs.Ignore.Written
import SyntaxTally.Text.Case

/-!
# Words in any case

A word of plain letters is the lower-case form of the texts that spell it, letter by letter, in small letters or in
capitals: no other character becomes one of these letters. With blanks cut off before, these are the texts that
`Spells` describes.
-/
namespace SyntaxTally.Text

variable {text word before core after : List Char} {c d : Char}

/-- The letters and digits of the words for true and false. -/
def plainLetters : List Char := ['a', 'e', 'f', 'l', 'n', 'o', 'r', 's', 't', 'u', 'y', '0', '1']

/-- The text is the word, in small letters or in capitals. -/
def SameLetters (word text : List Char) : Prop := List.Forall₂ (fun d c => c = d ∨ c = d.toUpper) word text

/-- The text is the word, in small letters or in capitals, and has nothing but blanks around it. -/
def Spells (word text : List Char) : Prop :=
  ∃ before core after, text = before ++ core ++ after ∧ (∀ c ∈ before ++ after, isSpace c = true) ∧
    SameLetters word core

/-! ### Letters -/

/-- The run of the Latin capitals, and that of the sign for kelvin, which becomes a small k. -/
def latinRuns : List (Nat × Nat × Nat × Int) := [(0x41, 0x5A, 1, 32), (0x212A, 0x212A, 1, -8383)]

theorem high_of_mem_lowerRuns {run : Nat × Nat × Nat × Int} (listed : run ∈ lowerRuns) (foreign : run ∉ latinRuns) :
    128 ≤ (run.1 : Int) + run.2.2.2 := by
  have all : (lowerRuns.all fun run =>
      decide (run ∈ latinRuns) || decide (128 ≤ (run.1 : Int) + run.2.2.2)) = true := by
    decide +kernel
  have here := List.all_eq_true.mp all run listed
  simpa [foreign] using here

/-- A plain letter is an ASCII character other than a capital and a small k. -/
theorem toNat_of_plain (plain : d ∈ plainLetters) :
    0 < d.toNat ∧ d.toNat < 128 ∧ d.toNat ≠ 0x6B ∧ (0x61 ≤ d.toNat → d.toUpper.toNat + 32 = d.toNat) := by
  have all : (plainLetters.all fun d => decide (0 < d.toNat ∧ d.toNat < 128 ∧ d.toNat ≠ 0x6B ∧
      (0x61 ≤ d.toNat → d.toUpper.toNat + 32 = d.toNat))) = true := by decide
  exact of_decide_eq_true (List.all_eq_true.mp all d plain)

theorem lowerChar_of_plain (plain : d ∈ plainLetters) : lowerChar d = d ∧ lowerChar d.toUpper = d := by
  have all : (plainLetters.all fun d => decide (lowerChar d = d ∧ lowerChar d.toUpper = d)) = true := by
    decide +kernel
  exact of_decide_eq_true (List.all_eq_true.mp all d plain)

/-- A number that is no character stands for the one of number zero. -/
theorem toNat_ofNat_of_pos {n : Nat} (positive : 0 < (Char.ofNat n).toNat) : (Char.ofNat n).toNat = n := by
  by_cases valid : n.isValidChar
  · have made : Char.ofNat n = Char.ofNatAux n valid := dif_pos valid
    rw [made]
    rfl
  · have made : Char.ofNat n = '\x00' := dif_neg valid
    rw [made] at positive
    exact absurd positive (by decide)

theorem lowerChar_eq_iff (plain : d ∈ plainLetters) : lowerChar c = d ↔ c = d ∨ c = d.toUpper := by
  constructor
  · intro same
    obtain ⟨positive, ascii, notK, upper⟩ := toNat_of_plain plain
    unfold lowerChar at same
    dsimp only at same
    split at same
    · rename_i first last step delta found
      have listed := List.mem_of_find?_eq_some found
      have inside := List.find?_some found
      simp only [Bool.and_eq_true, decide_eq_true_eq] at inside
      have moved : d.toNat = (c.toNat + delta).toNat := by
        rw [← same] at positive ⊢
        exact toNat_ofNat_of_pos positive
      by_cases latin : (first, last, step, delta) ∈ latinRuns
      · simp only [latinRuns, List.mem_cons, Prod.mk.injEq, List.not_mem_nil, or_false] at latin
        rcases latin with ⟨rfl, rfl, rfl, rfl⟩ | ⟨rfl, rfl, rfl, rfl⟩
        · right
          apply Char.toNat_inj.mp
          have capital := upper (by omega)
          omega
        · omega
      · have high := high_of_mem_lowerRuns listed latin
        dsimp only at high
        omega
    · exact .inl same
  · rintro (rfl | rfl)
    · exact (lowerChar_of_plain plain).1
    · exact (lowerChar_of_plain plain).2

/-! ### Words -/

theorem foreign_of_plain (plain : d ∈ plainLetters) :
    d ≠ 'i' ∧ d ≠ 'ς' ∧ ¬ ('İ' = d ∨ 'İ' = d.toUpper) ∧ ¬ ('Σ' = d ∨ 'Σ' = d.toUpper) ∧ isSpace d = false ∧
      isSpace d.toUpper = false := by
  have all : (plainLetters.all fun d => decide (d ≠ 'i' ∧ d ≠ 'ς' ∧ ¬ ('İ' = d ∨ 'İ' = d.toUpper) ∧
      ¬ ('Σ' = d ∨ 'Σ' = d.toUpper) ∧ isSpace d = false ∧ isSpace d.toUpper = false)) = true := by decide
  exact of_decide_eq_true (List.all_eq_true.mp all d plain)

theorem lowerFrom_eq_iff (plain : ∀ d ∈ word, d ∈ plainLetters) :
    lowerFrom before text = word ↔ SameLetters word text := by
  unfold SameLetters
  induction text generalizing word before with
  | nil => simp [lowerFrom, eq_comm]
  | cons c text ih =>
    unfold lowerFrom
    dsimp only
    cases word with
    | nil => split_ifs <;> simp
    | cons d word =>
      obtain ⟨isPlain, others⟩ := List.forall_mem_cons.mp plain
      obtain ⟨notI, notSigma, notDotted, notCapital, -⟩ := foreign_of_plain isPlain
      rw [List.forall₂_cons]
      split_ifs with dotted sigma
      · rw [dotted]
        simp [notI.symm, notDotted]
      · simp only [Bool.and_eq_true, decide_eq_true_eq] at sigma
        rw [sigma.1.1]
        simp [notSigma.symm, notCapital]
      · rw [List.singleton_append, List.cons.injEq, lowerChar_eq_iff isPlain, ih others]

/-! ### Blanks around a word -/

theorem exists_strip (text : List Char) : ∃ before after,
    text = before ++ strip text ++ after ∧ ∀ c ∈ before ++ after, isSpace c = true := by
  have split := List.takeWhile_append_dropWhile (p := isSpace) (l := text)
  have behind := List.takeWhile_append_dropWhile (p := isSpace) (l := (text.dropWhile isSpace).reverse)
  refine ⟨text.takeWhile isSpace, ((text.dropWhile isSpace).reverse.takeWhile isSpace).reverse, ?_, ?_⟩
  · rw [strip, trim, List.append_assoc, ← List.reverse_append, behind, List.reverse_reverse, split]
  · intro c member
    rcases List.mem_append.mp member with first | last
    · exact List.mem_takeWhile_imp first
    · exact List.mem_takeWhile_imp (List.mem_reverse.mp last)

theorem strip_of_blanks (blank : ∀ c ∈ before ++ after, isSpace c = true) (bare : Bare core) (some : core ≠ []) :
    strip (before ++ core ++ after) = core := by
  have blankBefore : ∀ c ∈ before, isSpace c = true := fun c member => blank c (List.mem_append_left _ member)
  have blankAfter : ∀ c ∈ after.reverse, isSpace c = true := fun c member =>
    blank c (List.mem_append_right _ (List.mem_reverse.mp member))
  have first : (core ++ after).dropWhile isSpace = core ++ after := by
    apply dropWhile_of_head?
    rw [List.head?_append_of_ne_nil _ some]
    exact bare.first
  have last : core.reverse.dropWhile isSpace = core.reverse := by
    apply dropWhile_of_head?
    rw [List.head?_reverse]
    exact bare.last
  rw [strip, trim, List.append_assoc, List.dropWhile_append_of_pos blankBefore, first, List.reverse_append,
    List.dropWhile_append_of_pos blankAfter, last, List.reverse_reverse]

theorem SameLetters.isSpace (same : SameLetters word text) (plain : ∀ d ∈ word, d ∈ plainLetters) :
    ∀ c ∈ text, Text.isSpace c = false := by
  induction same with
  | nil => simp
  | cons letter _ ih =>
    obtain ⟨isPlain, others⟩ := List.forall_mem_cons.mp plain
    obtain ⟨-, -, -, -, shown, shownUpper⟩ := foreign_of_plain isPlain
    refine List.forall_mem_cons.mpr ⟨?_, ih others⟩
    rcases letter with rfl | rfl
    · exact shown
    · exact shownUpper

/-- The texts whose lower-case form, with the blanks at the ends cut off, is a word of plain letters. -/
theorem lower_strip_eq_iff (plain : ∀ d ∈ word, d ∈ plainLetters) (some : word ≠ []) :
    lower (String.ofList (strip text)) = String.ofList word ↔ Spells word text := by
  rw [lower, String.ofList_inj, String.toList_ofList, lowerFrom_eq_iff plain]
  constructor
  · intro same
    obtain ⟨before, after, split, blank⟩ := exists_strip text
    exact ⟨before, strip text, after, split, blank, same⟩
  · rintro ⟨before, core, after, rfl, blank, same⟩
    have shown := same.isSpace plain
    have bare : Bare core :=
      ⟨fun c is => shown c (List.mem_of_head? is), fun c is => shown c (List.mem_of_getLast? is)⟩
    have full : core ≠ [] := by
      rintro rfl
      cases same
      exact some rfl
    rw [strip_of_blanks blank bare full]
    exact same

end SyntaxTally.Text
