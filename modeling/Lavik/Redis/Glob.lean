import Lavik.Redis.RedisParse
/-!
# Glob patterns

`RedisGlobMatch` remembers only the most recent star. That is enough because every other element of
a pattern takes exactly one byte, whichever: where the bytes up to a star could be matched later,
the star itself already stands before that place.
-/

namespace Lavik.Redis

open List

/-- `MatchGlobCharacterClass` behind the opening bracket and the negation: whether the byte was
found, and the pattern behind the class. -/
def scanGlobClass (value : UInt8) : Text → Bool → Bool × Text
  | [], matched => (matched, [])
  | 93 :: rest, matched => (matched, rest)
  | 92 :: first :: rest, matched => scanGlobClass value rest (matched || value == first)
  -- The end of a range is taken even when it is the closing bracket.
  | first :: 45 :: last :: rest, matched =>
    scanGlobClass value rest (matched || (min first last ≤ value && value ≤ max first last))
  | first :: rest, matched => scanGlobClass value rest (matched || value == first)

def matchGlobCharacterClass (pattern : Text) (value : UInt8) : Bool × Text :=
  match pattern with
  | 94 :: rest => let (matched, next) := scanGlobClass value rest false; (!matched, next)
  | _ => scanGlobClass value pattern false

/-- What one round of the loop does with an element that is no star. -/
def matchGlobElement (pattern : Text) (value : UInt8) : Bool × Text :=
  match pattern with
  | [] => (false, [])
  | 63 :: rest => (true, rest)
  | 91 :: rest => matchGlobCharacterClass rest value
  | 92 :: escaped :: rest => (escaped == value, rest)
  | byte :: rest => (byte == value, rest)

structure GlobState where
  pattern : Text
  text : Text
  /-- The pattern behind the last star, and the text it was last tried on. -/
  star : Option (Text × Text) := none

def GlobState.step (state : GlobState) : Bool ⊕ GlobState :=
  let behind := state.pattern.dropWhile (· = 42)
  match state.text with
  | [] => .inl (behind = [])
  | value :: rest =>
    if state.pattern.head? = some 42 then
      if behind = [] then .inl true
      else .inr ⟨behind, state.text, some (behind, state.text)⟩
    else
      let (matched, next) := matchGlobElement state.pattern value
      if matched then .inr { state with pattern := next, text := rest }
      else
        match state.star with
        | some (starPattern, _ :: starText) =>
          .inr ⟨starPattern, starText, some (starPattern, starText)⟩
        | _ => .inl false

def GlobState.loop : Nat → GlobState → Option Bool
  | 0, _ => none
  | fuel + 1, state =>
    match state.step with
    | .inl answer => some answer
    | .inr next => loop fuel next

def redisGlobMatch (fuel : Nat) (pattern text : Text) : Option Bool :=
  if text = [] then some (pattern = []) else GlobState.loop fuel { pattern, text }

/-- What a pattern matches. -/
inductive Globs : Text → Text → Prop
  | done : Globs [] []
  | skip {pattern text : Text} (rest : Globs pattern text) : Globs (42 :: pattern) text
  | star {pattern text : Text} (value : UInt8) (rest : Globs (42 :: pattern) text) :
      Globs (42 :: pattern) (value :: text)
  | any {pattern text : Text} (value : UInt8) (rest : Globs pattern text) :
      Globs (63 :: pattern) (value :: text)
  | class {pattern text : Text} {value : UInt8}
      (inside : (matchGlobCharacterClass pattern value).1 = true)
      (rest : Globs (matchGlobCharacterClass pattern value).2 text) :
      Globs (91 :: pattern) (value :: text)
  | escaped {pattern text : Text} (value : UInt8) (rest : Globs pattern text) :
      Globs (92 :: value :: pattern) (value :: text)
  | byte {pattern text : Text} {value : UInt8} (plain : value ≠ 42 ∧ value ≠ 63 ∧ value ≠ 91)
      (last : value = 92 → pattern = []) (rest : Globs pattern text) :
      Globs (value :: pattern) (value :: text)

/-! ## One element -/

theorem scanGlobClass_next (value other : UInt8) (pattern : Text) (matched found : Bool) :
    (scanGlobClass value pattern matched).2 = (scanGlobClass other pattern found).2 := by
  fun_induction scanGlobClass value pattern matched generalizing found with
  | case1 => rfl
  | case2 => simp [scanGlobClass]
  | case3 first rest _ ih => exact ih (found || other == first)
  | case4 first last rest _ bracket escape ih =>
    rw [scanGlobClass.eq_4 _ _ _ _ _ bracket escape]
    exact ih _
  | case5 first rest _ bracket escape range ih =>
    rw [scanGlobClass.eq_5 _ _ _ _ bracket escape range]
    exact ih _

theorem matchGlobElement_next (pattern : Text) (value other : UInt8) :
    (matchGlobElement pattern value).2 = (matchGlobElement pattern other).2 := by
  unfold matchGlobElement
  split
  · rfl
  · rfl
  · unfold matchGlobCharacterClass
    split <;> exact scanGlobClass_next ..
  · rfl
  · rfl

variable {pattern text : Text} {value : UInt8}

theorem globs_element (plain : pattern.head? ≠ some 42) : Globs pattern (value :: text) ↔
    (matchGlobElement pattern value).1 = true ∧ Globs (matchGlobElement pattern value).2 text := by
  constructor
  · intro globs
    cases globs with
    | star | skip => simp at plain
    | any _ rest => exact ⟨rfl, rest⟩
    | «class» inside rest => exact ⟨inside, rest⟩
    | escaped _ rest => simpa [matchGlobElement] using rest
    | @byte pattern _ _ apart last rest =>
      obtain ⟨-, joker, bracket⟩ := apart
      cases pattern with
      | nil => simpa [matchGlobElement, joker, bracket] using rest
      | cons next pattern =>
        have backslash : value ≠ 92 := fun same => by simpa using last same
        simpa [matchGlobElement, joker, bracket, backslash] using rest
  · intro both
    unfold matchGlobElement at both
    split at both
    · simp at both
    · exact .any value both.2
    · exact .class both.1 both.2
    · next escaped pattern =>
      obtain rfl : escaped = value := by simpa using both.1
      exact .escaped escaped both.2
    · next byte pattern joker bracket single =>
      obtain rfl : byte = value := by simpa using both.1
      refine .byte ⟨by simpa using plain, joker, bracket⟩ (fun same => ?_) both.2
      cases pattern with
      | nil => rfl
      | cons next pattern => exact absurd rfl (single next pattern same)

/-! ## Stars -/

theorem globs_star (front : Text) (rest : Globs (42 :: pattern) text) :
    Globs (42 :: pattern) (front ++ text) := by
  induction front with
  | nil => exact rest
  | cons value front ih => exact .star value ih

theorem Globs.behind (globs : Globs pattern text) :
    ∃ later, later <:+ text ∧ Globs (pattern.dropWhile (· = 42)) later := by
  induction globs with
  | done => exact ⟨[], suffix_rfl, .done⟩
  | skip _ ih => exact ih
  | star value _ ih =>
    obtain ⟨later, suffix, behind⟩ := ih
    exact ⟨later, suffix.trans (suffix_cons value _), behind⟩
  | any value rest => exact ⟨_, suffix_rfl, .any value rest⟩
  | «class» inside rest => exact ⟨_, suffix_rfl, .class inside rest⟩
  | escaped value rest => exact ⟨_, suffix_rfl, .escaped value rest⟩
  | byte plain last rest =>
    refine ⟨_, suffix_rfl, ?_⟩
    rw [dropWhile_cons_of_neg (by simpa using plain.1)]
    exact .byte plain last rest

theorem globs_of_behind (behind : Globs (pattern.dropWhile (· = 42)) text) :
    Globs pattern text := by
  induction pattern with
  | nil => exact behind
  | cons byte rest ih =>
    by_cases star : byte = 42
    · subst star
      exact .skip (ih behind)
    · rwa [dropWhile_cons_of_neg (by simpa using star)] at behind

/-- A pattern that starts with a star matches what some end of the text matches behind it. -/
theorem globs_iff_behind (star : pattern.head? = some 42) : Globs pattern text ↔
    ∃ later, later <:+ text ∧ Globs (pattern.dropWhile (· = 42)) later := by
  refine ⟨Globs.behind, ?_⟩
  rintro ⟨later, ⟨front, rfl⟩, behind⟩
  cases pattern with
  | nil => simp at star
  | cons byte rest =>
    obtain rfl : byte = 42 := by simpa using star
    exact globs_star front (globs_of_behind behind)

theorem globs_nil : Globs pattern [] ↔ pattern.dropWhile (· = 42) = [] := by
  constructor
  · intro globs
    obtain ⟨later, suffix, behind⟩ := globs.behind
    rw [suffix_nil.mp suffix] at behind
    generalize kept : pattern.dropWhile (· = 42) = rest at behind
    cases behind with
    | done => rfl
    | skip =>
      have first := head?_dropWhile_not (· = (42 : UInt8)) pattern
      simp [kept] at first
  · intro stars
    exact globs_of_behind (stars ▸ .done)

/-! ## The loop -/

namespace GlobState

variable (state : GlobState)

/-- What the loop still looks for: a match from here, or one behind the last star that starts
later than the one being tried. -/
def Wanted : Prop :=
  Globs state.pattern state.text ∨
    ∃ starPattern starText, state.star = some (starPattern, starText) ∧
      ∃ later, later <:+ starText ∧ later.length < starText.length ∧ Globs starPattern later

/-- The elements between the last star and the present place took one byte each, and would have
taken as many of any other text. -/
def Follows : Prop :=
  ∀ starPattern starText, state.star = some (starPattern, starText) →
    ∃ read, starText = read ++ state.text ∧ ∀ other, Globs starPattern other →
      ∃ front rest, other = front ++ rest ∧ front.length = read.length ∧ Globs state.pattern rest

def left : Nat :=
  state.star.elim (state.text.length + 1) fun star => star.2.length

/-- What a round achieves: an answer, or a state that wants the same and is nearer to the end. -/
def Progress : Bool ⊕ GlobState → Prop
  | .inl answer => answer = true ↔ state.Wanted
  | .inr next => next.Follows ∧ (next.Wanted ↔ state.Wanted) ∧
      (next.left < state.left ∨ next.left ≤ state.left ∧
        (next.text.length < state.text.length ∨ next.text.length = state.text.length ∧
          next.pattern.length < state.pattern.length))

variable {state : GlobState} {star : Option (Text × Text)}

theorem wanted_at_end (follows : state.Follows) (ended : state.text = []) :
    state.Wanted ↔ Globs state.pattern [] := by
  refine ⟨?_, fun globs => .inl (ended ▸ globs)⟩
  rintro (globs | ⟨starPattern, starText, star, later, -, shorter, globs⟩)
  · exact ended ▸ globs
  · obtain ⟨read, rfl, all⟩ := follows starPattern starText star
    obtain ⟨front, rest, rfl, same, -⟩ := all later globs
    simp only [ended, append_nil, length_append] at shorter
    omega

theorem wanted_at_star (follows : state.Follows) (star : state.pattern.head? = some 42) :
    state.Wanted ↔ Globs state.pattern state.text := by
  refine ⟨?_, .inl⟩
  rintro (globs | ⟨starPattern, starText, held, later, suffix, -, globs⟩)
  · exact globs
  · obtain ⟨read, rfl, all⟩ := follows starPattern starText held
    obtain ⟨front, rest, rfl, same, here⟩ := all later globs
    rw [globs_iff_behind star] at here ⊢
    obtain ⟨last, ends, behind⟩ := here
    have bound := suffix.length_le
    simp only [length_append] at bound
    refine ⟨last, ends.trans ?_, behind⟩
    exact suffix_of_suffix_length_le ((suffix_append _ _).trans suffix)
      (suffix_append _ _) (by omega)

theorem restarted (pattern text : Text) :
    Follows ⟨pattern, text, some (pattern, text)⟩ ∧ (Wanted ⟨pattern, text, some (pattern, text)⟩ ↔
        ∃ later, later <:+ text ∧ Globs pattern later) := by
  refine ⟨?_, ?_, ?_⟩
  · rintro _ _ ⟨⟩
    exact ⟨[], rfl, fun other globs => ⟨[], other, rfl, rfl, globs⟩⟩
  · rintro (globs | ⟨_, _, ⟨⟩, later, suffix, -, globs⟩)
    · exact ⟨text, suffix_rfl, globs⟩
    · exact ⟨later, suffix, globs⟩
  · rintro ⟨later, suffix, globs⟩
    rcases suffix.length_le.lt_or_eq with shorter | same
    · exact .inr ⟨pattern, text, rfl, later, suffix, shorter, globs⟩
    · exact .inl (suffix.eq_of_length same ▸ globs)

section

variable (follows : Follows ⟨pattern, value :: text, star⟩)

include follows

theorem Follows.element (plain : pattern.head? ≠ some 42)
    (matched : (matchGlobElement pattern value).1 = true) :
    Follows ⟨(matchGlobElement pattern value).2, text, star⟩ := by
  intro starPattern starText held
  obtain ⟨read, whole, all⟩ := follows starPattern starText held
  refine ⟨read ++ [value], by simp [whole], fun other globs => ?_⟩
  obtain ⟨front, rest, rfl, same, here⟩ := all other globs
  cases rest with
  | nil =>
    -- An element needs a byte, so the text cannot end here.
    cases here with
    | done => cases matched
    | skip => simp at plain
  | cons first rest =>
    rw [globs_element plain, matchGlobElement_next pattern first value] at here
    exact ⟨front ++ [first], rest, by simp, by simp [same], here.2⟩

theorem step_star (starred : pattern.head? = some 42) :
    Progress ⟨pattern, value :: text, star⟩ (step ⟨pattern, value :: text, star⟩) := by
  have wanted := (wanted_at_star follows starred).trans (globs_iff_behind starred)
  simp only [step, if_pos starred]
  split
  · next all =>
    refine iff_of_true rfl (wanted.mpr ⟨[], nil_suffix, ?_⟩)
    rw [all]
    exact .done
  · obtain ⟨kept, same⟩ := restarted (pattern.dropWhile (· = 42)) (value :: text)
    refine ⟨kept, same.trans wanted.symm, .inr ⟨?_, .inr ⟨rfl, ?_⟩⟩⟩
    · cases star with
      | none => exact Nat.le_succ _
      | some held =>
        obtain ⟨read, whole, -⟩ := follows held.1 held.2 rfl
        simp [left, whole]
    · cases pattern with
      | nil => simp at starred
      | cons byte behind =>
        obtain rfl : byte = 42 := by simpa using starred
        exact Nat.lt_succ_of_le (length_dropWhile_le (· = 42) behind)

theorem step_element (plain : pattern.head? ≠ some 42) :
    Progress ⟨pattern, value :: text, star⟩ (step ⟨pattern, value :: text, star⟩) := by
  have element := @globs_element pattern text value plain
  simp only [step, if_neg plain]
  split
  · next matched =>
    rw [and_iff_right matched] at element
    refine ⟨follows.element plain matched, or_congr element.symm Iff.rfl,
      .inr ⟨?_, .inl (Nat.lt_succ_self _)⟩⟩
    cases star <;> simp [left]
  · next failed =>
    have lost : ¬ Globs pattern (value :: text) := fun globs => failed (element.mp globs).1
    split
    · next starPattern first starText =>
      obtain ⟨kept, same⟩ := restarted starPattern starText
      refine ⟨kept, same.trans ⟨?_, ?_⟩, .inl (Nat.lt_succ_self _)⟩
      · rintro ⟨later, suffix, globs⟩
        exact .inr ⟨_, _, rfl, later, suffix.trans (suffix_cons _ _),
          Nat.lt_succ_of_le suffix.length_le, globs⟩
      · rintro (globs | ⟨_, _, ⟨⟩, later, suffix, shorter, globs⟩)
        · exact absurd globs lost
        · rcases suffix_cons_iff.mp suffix with rfl | inner
          · exact absurd shorter (Nat.lt_irrefl _)
          · exact ⟨later, inner, globs⟩
    · next exhausted =>
      refine iff_of_false Bool.false_ne_true ?_
      rintro (globs | ⟨starPattern, starText, rfl, later, -, shorter, -⟩)
      · exact lost globs
      · cases starText with
        | nil => exact absurd shorter (Nat.not_lt_zero _)
        | cons first starText => exact exhausted starPattern first starText rfl

end

theorem step_progress (follows : state.Follows) : state.Progress state.step := by
  obtain ⟨pattern, text, star⟩ := state
  cases text with
  | nil =>
    have ended := wanted_at_end follows rfl
    simpa [step, Progress, globs_nil] using ended.symm
  | cons value text =>
    by_cases starred : pattern.head? = some 42
    · exact step_star follows starred
    · exact step_element follows starred

theorem loop_spec (state : GlobState) (follows : state.Follows) :
    ∃ answer, (answer = true ↔ state.Wanted) ∧
      ∃ enough, ∀ fuel, enough ≤ fuel → loop fuel state = some answer := by
  have progress := step_progress follows
  cases stepped : state.step with
  | inl answer =>
    rw [stepped] at progress
    refine ⟨answer, progress, 1, fun fuel pos => ?_⟩
    obtain ⟨fuel, rfl⟩ := Nat.exists_eq_succ_of_ne_zero (Nat.ne_of_gt pos)
    rw [loop, stepped]
  | inr next =>
    rw [stepped] at progress
    obtain ⟨kept, same, nearer⟩ := progress
    obtain ⟨answer, right, enough, ends⟩ := loop_spec next kept
    refine ⟨answer, right.trans same, enough + 1, fun fuel more => ?_⟩
    obtain ⟨fuel, rfl⟩ := Nat.exists_eq_succ_of_ne_zero (Nat.ne_zero_of_lt more)
    rw [loop, stepped]
    exact ends fuel (Nat.le_of_succ_le_succ more)
termination_by (state.left, state.text.length, state.pattern.length)
decreasing_by
  simp only [Prod.lex_def]
  omega

end GlobState

/-- **Remembering the last star is enough.** On every text that is not empty the loop ends, with
the answer whether the pattern matches. -/
theorem glob_match_is_recursive (pattern text : Text) (nonempty : text ≠ []) :
    ∃ answer, (answer = true ↔ Globs pattern text) ∧
      ∃ enough, ∀ fuel, enough ≤ fuel → redisGlobMatch fuel pattern text = some answer := by
  obtain ⟨answer, right, ends⟩ := GlobState.loop_spec { pattern, text } nofun
  have only : ({ pattern, text } : GlobState).Wanted ↔ Globs pattern text :=
    or_iff_left fun ⟨_, _, held, _⟩ => nomatch held
  refine ⟨answer, right.trans only, ?_⟩
  simpa only [redisGlobMatch, if_neg nonempty] using ends

/-- `*ab` is found in `aab` on the second try of its star. -/
theorem glob_match_retries :
    ∃ enough, ∀ fuel, enough ≤ fuel →
      redisGlobMatch fuel [42, 97, 98] [97, 97, 98] = some true := by
  obtain ⟨answer, right, ends⟩ := glob_match_is_recursive [42, 97, 98] [97, 97, 98] (by simp)
  have found : Globs [42, 97, 98] [97, 97, 98] :=
    .star 97 (.skip (.byte (by decide) (by decide) (.byte (by decide) (by decide) .done)))
  rwa [right.mpr found] at ends

end Lavik.Redis
