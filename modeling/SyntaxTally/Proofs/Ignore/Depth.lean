import Mathlib.Data.List.Infix
import SyntaxTally.Proofs.Ignore.Glob
import SyntaxTally.Proofs.Ignore.Rule

/-!
# How deep an anchored rule reaches

A wildcard pattern is matched against the whole path, so that its wildcards take slashes like other characters.
`Spells` says which texts the wildcards stand for, one after the other. From it follows at which depth an anchored
rule finds something (`anchored_rule_depth`): never above the depth its slashes say, and at no other depth just if
none of its wildcards takes a slash.
-/
namespace SyntaxTally.Ignore

namespace Wildcard

/-- The text is spelled by the wildcards: a star by any characters, each other one by one character. -/
inductive Spells : List Wildcard → List Char → Prop where
  | nil : Spells [] []
  | star {more : List Wildcard} {rest : List Char} (taken : List Char) :
      Spells more rest → Spells (.star :: more) (taken ++ rest)
  | one {w : Wildcard} {more : List Wildcard} {c : Char} {rest : List Char} :
      w.accepts c = true → Spells more rest → Spells (w :: more) (c :: rest)

variable {w : Wildcard} {wildcards more : List Wildcard} {text : List Char}

/-! ### Matching is spelling -/

theorem mem_suffixes {text tail : List Char} : tail ∈ suffixes text ↔ tail <:+ text := by
  induction text with
  | nil => simp [suffixes]
  | cons c rest ih => simp [suffixes, List.suffix_cons_iff, ih]

theorem pairwise_suffixes (text : List Char) : (suffixes text).Pairwise fun longer shorter => shorter <:+ longer := by
  induction text with
  | nil => simp [suffixes]
  | cons c rest ih =>
    refine List.pairwise_cons.mpr ⟨fun tail member => ?_, ih⟩
    exact (mem_suffixes.mp member).trans (List.suffix_cons c rest)

theorem spells_nil_iff : Spells [] text ↔ text = [] := by
  constructor
  · rintro ⟨⟩
    rfl
  · rintro rfl
    exact .nil

theorem spells_star_iff : Spells (.star :: more) text ↔ ∃ tail, tail <:+ text ∧ Spells more tail := by
  constructor
  · intro spelled
    cases spelled with
    | star taken rest => exact ⟨_, List.suffix_append taken _, rest⟩
    | one accepted => cases accepted
  · rintro ⟨tail, ⟨taken, rfl⟩, rest⟩
    exact .star taken rest

theorem spells_cons_iff (single : w ≠ .star) :
    Spells (w :: more) text ↔ ∃ c rest, text = c :: rest ∧ w.accepts c = true ∧ Spells more rest := by
  constructor
  · intro spelled
    cases spelled with
    | star => exact absurd rfl single
    | one accepted rest => exact ⟨_, _, rfl, accepted, rest⟩
  · rintro ⟨c, rest, rfl, accepted, spelled⟩
    exact .one accepted spelled

/-- What is left of a text behind one character that the wildcard accepts. -/
def pass (w : Wildcard) : List Char → Option (List Char)
  | [] => none
  | c :: rest => if w.accepts c then some rest else none

theorem pass_eq_some {rest : List Char} : w.pass text = some rest ↔ ∃ c, text = c :: rest ∧ w.accepts c = true := by
  cases text with
  | nil => simp [pass]
  | cons c tail =>
    by_cases accepted : w.accepts c = true <;> simp [pass, accepted]

theorem remainders_cons (single : w ≠ .star) (texts : List (List Char)) :
    remainders (w :: more) texts = remainders more (texts.filterMap w.pass) := by
  cases w with
  | star => exact absurd rfl single
  | any | char | set => rfl

/-- The texts are ends of one another, so that a star in the first one finds all that a star in the others does. -/
theorem isEmpty_remainders_iff {texts : List (List Char)}
    (ends : texts.Pairwise fun longer shorter => shorter <:+ longer) :
    (remainders wildcards texts).any List.isEmpty = true ↔ ∃ text ∈ texts, Spells wildcards text := by
  induction wildcards generalizing texts with
  | nil => simp [remainders, spells_nil_iff]
  | cons w more ih =>
    by_cases star : w = .star
    · subst star
      cases texts with
      | nil =>
        rw [remainders, ih (by simp)]
        simp
      | cons longest others =>
        rw [remainders, List.head?_cons, Option.elim_some, ih (pairwise_suffixes longest)]
        simp only [mem_suffixes, spells_star_iff]
        constructor
        · rintro ⟨tail, inside, spelled⟩
          exact ⟨longest, by simp, tail, inside, spelled⟩
        · rintro ⟨text, member, tail, inside, spelled⟩
          have within : text <:+ longest := by
            rcases List.mem_cons.mp member with rfl | other
            · exact List.suffix_refl _
            · exact List.rel_of_pairwise_cons ends other
          exact ⟨tail, inside.trans within, spelled⟩
    · have still : (texts.filterMap w.pass).Pairwise fun longer shorter => shorter <:+ longer := by
        refine ends.filterMap _ fun longer shorter within rest passed tail alsoPassed => ?_
        obtain ⟨c, rfl, -⟩ := pass_eq_some.mp passed
        obtain ⟨d, rfl, -⟩ := pass_eq_some.mp alsoPassed
        rcases List.suffix_cons_iff.mp within with same | inside
        · rw [(List.cons.inj same).2]
        · exact (List.suffix_cons d tail).trans inside
      rw [remainders_cons star, ih still]
      simp only [List.mem_filterMap, pass_eq_some, spells_cons_iff star]
      constructor
      · rintro ⟨rest, ⟨text, member, c, rfl, accepted⟩, spelled⟩
        exact ⟨_, member, c, rest, rfl, accepted, spelled⟩
      · rintro ⟨text, member, c, rest, rfl, accepted, spelled⟩
        exact ⟨rest, ⟨_, member, c, rfl, accepted⟩, spelled⟩

end Wildcard

theorem wildcardMatches_iff_spells (text pattern : List Char) :
    wildcardMatches text pattern = true ↔ Wildcard.Spells (Wildcard.ofPattern pattern) text := by
  rw [wildcardMatches, Wildcard.isEmpty_remainders_iff (List.pairwise_singleton _ _)]
  simp

/-! ### Slashes -/

namespace Wildcard

variable {w : Wildcard} {wildcards : List Wildcard} {text : List Char}

/-- The wildcard may stand for a slash, though it is none itself. -/
def takesSlash : Wildcard → Bool
  | star | any => true
  | char _ => false
  | set negated ranges => accepts '/' (set negated ranges)

/-- How many slashes the wildcards are. -/
def slashes (wildcards : List Wildcard) : Nat := wildcards.count (.char '/')

theorem slashes_cons (w : Wildcard) (more : List Wildcard) :
    slashes (w :: more) = slashes more + if w = .char '/' then 1 else 0 := by
  simp [slashes, List.count_cons]

theorem count_slash_cons (c : Char) (rest : List Char) :
    (c :: rest).count '/' = rest.count '/' + if c = '/' then 1 else 0 := by
  simp [List.count_cons]

theorem eq_slash_of_accepts {c : Char} (accepted : w.accepts c = true) (slash : w = .char '/') : c = '/' := by
  subst slash
  simpa [accepts] using accepted

theorem eq_char_of_firm (firm : w.takesSlash = false) (accepted : w.accepts '/' = true) : w = .char '/' := by
  cases w with
  | star | any => cases firm
  | char d =>
    obtain rfl : '/' = d := by simpa [accepts] using accepted
    rfl
  | set negated ranges =>
    rw [takesSlash, accepted] at firm
    cases firm

theorem slashes_le_of_spells (spelled : Spells wildcards text) : slashes wildcards ≤ text.count '/' := by
  induction spelled with
  | nil => simp [slashes]
  | star taken _ ih =>
    rw [slashes_cons, List.count_append]
    simp
    omega
  | @one w more c rest accepted _ ih =>
    rw [slashes_cons, count_slash_cons]
    by_cases slash : w = .char '/'
    · rw [if_pos slash, if_pos (eq_slash_of_accepts accepted slash)]
      omega
    · rw [if_neg slash]
      exact Nat.le_add_right_of_le ih

theorem count_of_spells (firm : ∀ w ∈ wildcards, w.takesSlash = false) (spelled : Spells wildcards text) :
    text.count '/' = slashes wildcards := by
  induction spelled with
  | nil => simp [slashes]
  | star => cases firm .star (by simp)
  | @one w more c rest accepted _ ih =>
    have same : c = '/' ↔ w = .char '/' := by
      constructor
      · rintro rfl
        exact eq_char_of_firm (firm w (by simp)) accepted
      · exact eq_slash_of_accepts accepted
    rw [slashes_cons, count_slash_cons, ih fun other member => firm other (by simp [member]), if_congr same rfl rfl]

/-- With a wildcard that takes a slash, a text is spelled that has more slashes than the wildcards are. -/
theorem exists_deeper (spelled : Spells wildcards text) (member : w ∈ wildcards) (takes : w.takesSlash = true) :
    ∃ deeper, Spells wildcards deeper ∧ slashes wildcards < deeper.count '/' := by
  induction spelled with
  | nil => cases member
  | star taken spelled =>
    refine ⟨'/' :: taken ++ _, .star ('/' :: taken) spelled, ?_⟩
    have least := slashes_le_of_spells spelled
    rw [slashes_cons, List.count_append, count_slash_cons]
    simp
    omega
  | @one other more c rest accepted spelled ih =>
    rcases List.mem_cons.mp member with rfl | behind
    · have slash : w.accepts '/' = true := by
        cases w with
        | star => cases accepted
        | any => rfl
        | char => cases takes
        | set => exact takes
      have single : w ≠ .char '/' := by
        rintro rfl
        cases takes
      have least := slashes_le_of_spells spelled
      refine ⟨'/' :: rest, .one slash spelled, ?_⟩
      rw [slashes_cons, count_slash_cons, if_neg single, if_pos rfl]
      omega
    · obtain ⟨deeper, alsoSpelled, more⟩ := ih behind
      refine ⟨c :: deeper, .one accepted alsoSpelled, ?_⟩
      rw [slashes_cons, count_slash_cons]
      by_cases slash : other = .char '/'
      · rw [if_pos slash, if_pos (eq_slash_of_accepts accepted slash)]
        omega
      · rw [if_neg slash]
        exact Nat.lt_add_right _ more

theorem parse_cons {c : Char} (opens : c ≠ '[') (fuel : Nat) (rest : List Char) :
    parse (fuel + 1) (c :: rest) =
      (if c = '*' then .star else if c = '?' then .any else .char c) :: parse fuel rest := by
  by_cases isStar : c = '*'
  · subst isStar
    rfl
  · by_cases isAny : c = '?'
    · subst isAny
      rfl
    · rw [if_neg isStar, if_neg isAny, parse]
      all_goals assumption

/-- Without brackets each slash of a pattern is one of its wildcards. -/
theorem slashes_parse {fuel : Nat} {pattern : List Char} (plain : '[' ∉ pattern) (enough : pattern.length < fuel) :
    slashes (parse fuel pattern) = pattern.count '/' := by
  induction fuel generalizing pattern with
  | zero => omega
  | succ fuel ih =>
    cases pattern with
    | nil => rfl
    | cons c rest =>
      obtain ⟨opens, behind⟩ : '[' ≠ c ∧ '[' ∉ rest := by simpa using plain
      rw [parse_cons (Ne.symm opens), slashes_cons, count_slash_cons, ih behind (Nat.lt_of_succ_lt_succ enough)]
      congr 1
      split
      · simp_all
      · split <;> simp_all

end Wildcard

/-! ### The depth of a rule -/

theorem length_components (path : List Char) : (components path).length = path.count '/' + 1 := by
  induction path with
  | nil => rfl
  | cons c rest ih =>
    rw [components, Wildcard.count_slash_cons]
    split
    · rw [List.length_cons, ih]
    · cases parts : components rest with
      | nil => simp [parts] at ih
      | cons first more => simpa [parts] using ih

theorem globMatches_of_no_doubleStar {pattern : List Char} (single : ¬ ['*', '*'] <:+: pattern) (path : List Char) :
    globMatches path pattern = wildcardMatches path pattern := by
  have trailing : ¬ below.isSuffixOf pattern = true := by
    rw [isSuffixOf_below_iff]
    rintro ⟨inner, rfl⟩
    exact single ⟨inner ++ ['/'], [], by simp [below]⟩
  have leading : ¬ anywhere.isPrefixOf pattern = true := by
    rw [isPrefixOf_anywhere_iff]
    rintro ⟨rest, rfl⟩
    exact single ⟨[], '/' :: rest, by simp [anywhere]⟩
  rw [globMatches, dif_neg trailing, dif_neg leading, Bool.or_false, Bool.or_false]

namespace Rule

/-- The number of components that the slashes of the pattern, those in brackets apart, stand between. -/
def depth (rule : Rule) : Nat := Wildcard.slashes (Wildcard.ofPattern rule.pattern) + 1

variable {rule : Rule}

theorem fits_iff_spells (anchored : rule.anchored = true) (single : ¬ ['*', '*'] <:+: rule.pattern)
    (path : List Char) :
    rule.fits path = true ↔ Wildcard.Spells (Wildcard.ofPattern rule.pattern) path := by
  rw [fits, anchored, Bool.true_or, if_pos rfl, globMatches_of_no_doubleStar single, wildcardMatches_iff_spells]

theorem depth_eq (plain : '[' ∉ rule.pattern) : rule.depth = (components rule.pattern).length := by
  rw [depth, length_components, Wildcard.ofPattern, Wildcard.slashes_parse plain (by omega)]

end Rule

/-- How deep an anchored rule without `**` finds something by its pattern. It does at no lower depth than its slashes
say; and at this depth only just if none of its wildcards takes a slash, or it finds nothing at all. -/
theorem anchored_rule_depth {rule : Rule} (anchored : rule.anchored = true)
    (single : ¬ ['*', '*'] <:+: rule.pattern) :
    (∀ path isDir, rule.names path isDir = true → rule.fits path = true →
      rule.depth ≤ (components path).length) ∧
    ((∀ path isDir, rule.names path isDir = true → rule.fits path = true →
        (components path).length = rule.depth) ↔
      (∀ path, rule.fits path = false) ∨ ∀ w ∈ Wildcard.ofPattern rule.pattern, w.takesSlash = false) ∧
    ('[' ∉ rule.pattern → rule.depth = (components rule.pattern).length) := by
  have spells := Rule.fits_iff_spells anchored single
  refine ⟨fun path isDir _ fitting => ?_, ⟨fun fixed => ?_, ?_⟩, Rule.depth_eq⟩
  · rw [length_components]
    exact Nat.succ_le_succ (Wildcard.slashes_le_of_spells ((spells path).mp fitting))
  · by_cases found : ∃ path, rule.fits path = true
    · obtain ⟨path, fitting⟩ := found
      refine .inr fun w member => Bool.eq_false_iff.mpr fun takes => ?_
      obtain ⟨deeper, spelled, more⟩ := Wildcard.exists_deeper ((spells path).mp fitting) member takes
      have written : rule.pattern ≠ [] := by
        intro empty
        rw [empty] at member
        cases member
      have alsoFits := (spells deeper).mpr spelled
      have same := fixed deeper true (Rule.names_of_fits written alsoFits) alsoFits
      rw [length_components, Rule.depth] at same
      omega
    · exact .inl fun path => Bool.eq_false_iff.mpr fun fitting => found ⟨path, fitting⟩
  · rintro (none | firm) path isDir named fitting
    · rw [none path] at fitting
      cases fitting
    · rw [length_components, Rule.depth, Wildcard.count_of_spells firm ((spells path).mp fitting)]

/-- The rule of a line for the modules in a directory, and only there. -/
def modulesHere : Rule := ⟨"*.py".toList, false, true, false, false⟩

theorem anchored_rule_depth_modulesHere :
    modulesHere.anchored = true ∧ ¬ ['*', '*'] <:+: modulesHere.pattern ∧
    (∀ path isDir, modulesHere.names path isDir = true → modulesHere.fits path = true →
      modulesHere.depth ≤ (components path).length) ∧
    ((∀ path isDir, modulesHere.names path isDir = true → modulesHere.fits path = true →
        (components path).length = modulesHere.depth) ↔
      (∀ path, modulesHere.fits path = false) ∨
        ∀ w ∈ Wildcard.ofPattern modulesHere.pattern, w.takesSlash = false) ∧
    ('[' ∉ modulesHere.pattern → modulesHere.depth = (components modulesHere.pattern).length) := by
  have single : ¬ ['*', '*'] <:+: modulesHere.pattern := by decide
  exact ⟨rfl, single, anchored_rule_depth rfl single⟩

theorem anchored_star_goes_deeper :
    parseLines ["/*.py".toList] = [modulesHere] ∧ modulesHere.anchored = true ∧
    ¬ ['*', '*'] <:+: modulesHere.pattern ∧ modulesHere.names "src/a.py".toList false = true ∧
    modulesHere.fits "src/a.py".toList = true ∧ (components "src/a.py".toList).length = 2 ∧
    (components modulesHere.pattern).length = 1 := by
  refine ⟨by decide +kernel, rfl, by decide, by decide +kernel, by decide +kernel, by decide, by decide⟩

end SyntaxTally.Ignore
