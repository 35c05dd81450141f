import Lavik.Redis.CommandTable
/-!
# The keys of a command

The view `DetermineKeys` returns names exactly the key positions of a request as long as the last
of them fits in 16 bits and, for SORT, no word `store` stands behind the last `STORE` option.
-/

namespace Lavik.Redis

open Base KeyIndexView CommandSpec

/-! ## What the keys are -/

inductive KeyFamily
  | fixed
  | fixedOrHelp
  | counted (index : Nat)
  | sort
  /-- The first half of the arguments behind `STREAMS`, which is looked for from an index on. -/
  | streams (optionBegin : Nat)
  | source
deriving DecidableEq

variable (spec : CommandSpec)

def CommandSpec.keyFamily : KeyFamily :=
  if !spec.movableKeys then .fixed
  else if spec.kind = .xgroup ∨ spec.kind = .xinfo then .fixedOrHelp
  else if spec.kind ∈ scriptKinds then .counted 2
  else if spec.kind = .sort then .sort
  else if spec.kind = .xread ∨ spec.kind = .xreadgroup then
    .streams (if spec.kind = .xreadgroup then 4 else 1)
  else if spec.kind = .georadius ∨ spec.kind = .georadiusbymember then .source
  else if spec.kind ∈ aggregateKinds then
    .counted (if spec.kind ∈ aggregateStoreKinds then 2 else 1)
  else .counted (if spec.kind = .blmpop ∨ spec.kind = .bzmpop then 2 else 1)

def CommandSpec.fixedKeys (argc : Nat) : List Nat :=
  if spec.firstKey = 0 then []
  else keyRange spec.firstKey.toNat (spec.lastKeyIndex argc).toNat spec.keyStep.toNat

def countedKeys (args : List Text) (index : Nat) : List Nat :=
  List.range' (index + 1) (integerOf (argument args index)).toNat

/-- The destination of a SORT as its options read: `LIMIT` takes two arguments, `BY`, `GET` and
`STORE` take one, and the last `STORE` counts. -/
def storeDestination : Nat → List Text → Option Nat → Option Nat
  | index, token :: first :: second :: rest, destination =>
    if redisEqualsIgnoreCase token (text "limit") then
      storeDestination (index + 3) rest destination
    else if redisEqualsIgnoreCase token (text "by") ∨ redisEqualsIgnoreCase token (text "get") then
      storeDestination (index + 2) (second :: rest) destination
    else if redisEqualsIgnoreCase token (text "store") then
      storeDestination (index + 2) (second :: rest) (some (index + 1))
    else storeDestination (index + 1) (first :: second :: rest) destination
  | index, [token, _], destination =>
    if redisEqualsIgnoreCase token (text "store") then some (index + 1) else destination
  | _, _, destination => destination

def commandKeys (args : List Text) : List Nat :=
  match spec.keyFamily with
  | .fixed => spec.fixedKeys args.length
  | .fixedOrHelp =>
    if args.length = 2 ∧ equalsIgnoreCase (argument args 1) (text "help") then []
    else spec.fixedKeys args.length
  | .counted index => countedKeys args index
  | .sort => 1 :: (storeDestination 2 (args.drop 2) none).toList
  | .streams optionBegin =>
    let streams := streamsIndex args optionBegin
    List.range' (streams + 1) ((args.length - (streams + 1)) / 2)
  | .source => [1]

/-- A word `store` with a word behind it. -/
def StoreWord (tokens : List Text) (word : Nat) : Prop :=
  word + 1 < tokens.length ∧ equalsIgnoreCase (argument tokens word) (text "store")

/-- The last key of the range fits in a view, and every word `store` of a SORT stands before the
destination of its last `STORE` option. -/
def Representable (args : List Text) : Prop :=
  match spec.keyFamily with
  | .fixed => spec.firstKey = 0 ∨ spec.lastKeyIndex args.length < 2 ^ 16
  | .fixedOrHelp =>
    ¬ (args.length = 2 ∧ equalsIgnoreCase (argument args 1) (text "help")) →
      spec.firstKey = 0 ∨ spec.lastKeyIndex args.length < 2 ^ 16
  | .counted index => index + integerOf (argument args index) < 2 ^ 16
  | .sort => ∀ word, StoreWord (args.drop 2) word →
      ∃ destination ∈ storeDestination 2 (args.drop 2) none, 2 + word < destination
  | .streams _ | .source => True

/-! ## Views -/

theorem length_keyRange (first last step : Nat) :
    (keyRange first last step).length = (last + step - first) / step := by
  simp [keyRange]

variable {last first count argc index : Nat} {view : KeyIndexView} {spec : CommandSpec}

theorem keyRange_truncated {step : Nat} (pos : 0 < step) (narrow : step < 2 ^ 8)
    (ordered : first ≤ last) :
    keyRange first (last % 2 ^ 16) step = keyRange first last step ↔ last < 2 ^ 16 := by
  constructor
  · intro same
    by_contra! far
    have lengths := congrArg List.length same
    rw [length_keyRange, length_keyRange] at lengths
    have longer : last % 2 ^ 16 + step - first + step ≤ last + step - first := by omega
    have quotient := Nat.div_le_div_right (c := step) longer
    rw [Nat.add_div_right _ pos] at quotient
    omega
  · intro near
    rw [Nat.mod_eq_of_lt near]

theorem keyRange_one :
    keyRange first (first + count - 1) 1 = List.range' first count ∨ first + count = 0 := by
  by_cases empty : first + count = 0
  · exact .inr empty
  left
  rw [keyRange, Nat.div_one]
  congr 1
  omega

theorem positions_cast {first : UInt16} {step : UInt8} (present : first ≠ 0) :
    positions ⟨first, UInt16.ofNat last, step⟩ =
      keyRange first.toNat (last % 2 ^ 16) step.toNat := by
  rw [positions, if_neg present]
  simp

theorem positions_consecutive (begins : 0 < first) (ne : 0 < count)
    (fits : first + count - 1 < 2 ^ 16) :
    positions ⟨UInt16.ofNat first, UInt16.ofNat (first + count - 1), 1⟩ =
      List.range' first count := by
  have near : first < 2 ^ 16 := by omega
  have present : UInt16.ofNat first ≠ 0 := by
    intro zero
    have value := congrArg UInt16.toNat zero
    rw [UInt16.toNat_ofNat', Nat.mod_eq_of_lt near] at value
    exact absurd value (by simp; omega)
  rw [positions_cast present, Nat.mod_eq_of_lt fits, UInt16.toNat_ofNat', Nat.mod_eq_of_lt near]
  exact keyRange_one.resolve_right (by omega)

theorem determineKeysByCount_exact (steps : 0 < spec.keyStep.toNat)
    (ok : determineKeysByCount spec argc = .ok view) :
    view.positions = spec.fixedKeys argc ↔ spec.firstKey = 0 ∨ spec.lastKeyIndex argc < 2 ^ 16 := by
  simp only [determineKeysByCount, refuseIf_bind] at ok
  obtain ⟨-, rest⟩ := ok
  split at rest
  · rename_i keyless
    cases rest
    simp [fixedKeys, keyless, positions]
  rename_i keyed
  obtain ⟨inside, made⟩ := refuseIf_bind.mp rest
  cases made
  have present : spec.firstKey.toUInt16 ≠ 0 := by
    intro zero
    have value := congrArg UInt16.toNat zero
    exact keyed (UInt8.toNat_inj.mp (by simpa using value))
  rw [fixedKeys, if_neg keyed, positions_cast present, UInt8.toNat_toUInt16,
    keyRange_truncated steps spec.keyStep.toNat_lt (by omega)]
  simp only [keyed, false_or]
  omega

/-! ## The branches -/

section Branches

variable {args : List Text}

theorem determineScriptKeys_exact (ok : determineScriptKeys args = .ok view) :
    view.positions = countedKeys args 2 ↔ 2 + integerOf (argument args 2) < 2 ^ 16 := by
  unfold determineScriptKeys at ok
  split at ok
  · rename_i keyCount parsed
    rw [← parseRedisInt64_value parsed]
    obtain ⟨pos, rest⟩ := refuseIf_bind.mp ok
    obtain ⟨-, rest⟩ := refuseIf_bind.mp rest
    rw [countedKeys, ← parseRedisInt64_value parsed]
    split at rest
    · rename_i zero
      obtain rfl := Except.ok.inj rest
      simp [zero, positions]
    obtain ⟨bounded, made⟩ := refuseIf_bind.mp rest
    obtain rfl := Except.ok.inj made
    have shape : keyRange 3 (2 + keyCount.toNat) 1 = List.range' 3 keyCount.toNat := by
      have general : keyRange 3 (3 + keyCount.toNat - 1) 1 = _ :=
        keyRange_one.resolve_right (by omega)
      rwa [show 3 + keyCount.toNat - 1 = 2 + keyCount.toNat by omega] at general
    rw [positions_cast (by decide), ← shape]
    have exactly : keyRange 3 ((2 + keyCount.toNat) % 2 ^ 16) 1 = _ ↔ _ :=
      keyRange_truncated (by decide) (by decide) (by omega)
    exact exactly.trans (by omega)
  · exact absurd ok (by simp)

variable {tokens : List Text} {word : Nat}

theorem StoreWord.cons (named : StoreWord tokens word) (token : Text) :
    StoreWord (token :: tokens) (word + 1) :=
  ⟨Nat.succ_lt_succ named.1, named.2⟩

theorem StoreWord.tail {token : Text} (named : StoreWord (token :: tokens) (word + 1)) :
    StoreWord tokens word :=
  ⟨Nat.lt_of_succ_lt_succ named.1, named.2⟩

variable {destination : Option Nat}

/-- The scan of `DetermineKeys` ends no earlier than with what it started from, and behind every
word `store`. -/
theorem scanDestination_reaches {floor : Nat} (known : ∀ earlier ∈ destination, earlier ≤ index)
    (named : destination = some floor ∨ ∃ word, StoreWord tokens word ∧ floor = index + word + 1) :
    ∃ found ∈ scanDestination index tokens destination, floor ≤ found := by
  fun_induction scanDestination index tokens destination generalizing floor with
  | case1 index token next rest destination ih =>
    by_cases store : equalsIgnoreCase token (text "store")
    · simp only [store, if_true] at ih ⊢
      obtain same | ⟨word | word, behind, rfl⟩ := named
      · obtain ⟨found, scanned, later⟩ := ih (by simp) (.inl rfl)
        exact ⟨found, scanned, (known _ same).trans (Nat.le_of_succ_le later)⟩
      · exact ih (by simp) (.inl rfl)
      · exact ih (by simp) (.inr ⟨word, behind.tail, by omega⟩)
    · simp only [store] at ih ⊢
      refine ih (fun earlier held => (known earlier held).trans (Nat.le_succ _)) ?_
      obtain same | ⟨word | word, behind, rfl⟩ := named
      · exact .inl same
      · exact absurd behind.2 store
      · exact .inr ⟨word, behind.tail, by omega⟩
  | case2 tokens _ destination short =>
    obtain same | ⟨word, behind, -⟩ := named
    · exact ⟨floor, same, Nat.le_refl _⟩
    · obtain ⟨long, -⟩ := behind
      obtain _ | ⟨token, _ | ⟨next, rest⟩⟩ := tokens
      · exact absurd long (by simp)
      · exact absurd long (by simp)
      · exact (short _ _ _ rfl).elim

/-- What `DetermineKeys` finds is behind a word `store`. -/
theorem scanDestination_named {found : Nat}
    (scanned : found ∈ scanDestination index tokens destination) :
    destination = some found ∨ ∃ word, StoreWord tokens word ∧ found = index + word + 1 := by
  fun_induction scanDestination index tokens destination with
  | case1 index token next rest destination ih =>
    obtain here | ⟨word, named, rfl⟩ := ih scanned
    · split at here
      · next store =>
        exact .inr ⟨0, ⟨by simp, store⟩, (Option.some.inj here).symm⟩
      · exact .inl here
    · exact .inr ⟨word + 1, named.cons token, by omega⟩
  | case2 => exact .inl scanned

/-- So is the destination of a `STORE` option. -/
theorem storeDestination_named {found : Nat}
    (read : found ∈ storeDestination index tokens destination) :
    destination = some found ∨ ∃ word, StoreWord tokens word ∧ found = index + word + 1 := by
  fun_induction storeDestination index tokens destination with
  | case1 _ _ _ _ _ _ _ ih =>
    exact (ih read).imp_right fun ⟨word, named, same⟩ =>
      ⟨word + 3, ((named.cons _).cons _).cons _, by omega⟩
  | case2 _ _ _ _ _ _ _ _ ih =>
    exact (ih read).imp_right fun ⟨word, named, same⟩ =>
      ⟨word + 2, (named.cons _).cons _, by omega⟩
  | case3 _ _ _ _ _ _ _ _ store ih =>
    obtain here | ⟨word, named, same⟩ := ih read
    · exact .inr ⟨0, ⟨by simp, store⟩, (Option.some.inj here).symm⟩
    · exact .inr ⟨word + 2, (named.cons _).cons _, by omega⟩
  | case4 _ _ _ _ _ _ _ _ _ ih =>
    exact (ih read).imp_right fun ⟨word, named, same⟩ => ⟨word + 1, named.cons _, by omega⟩
  | case5 _ _ _ _ store => exact .inr ⟨0, ⟨by simp, store⟩, (Option.some.inj read).symm⟩
  | case6 | case7 => exact .inl read

theorem sort_destinations_agree :
    scanDestination index tokens none = storeDestination index tokens none ↔
      ∀ word, StoreWord tokens word →
        ∃ destination ∈ storeDestination index tokens none, index + word < destination := by
  have reached (word : Nat) (named : StoreWord tokens word) :
      ∃ found ∈ scanDestination index tokens none, index + word < found :=
    scanDestination_reaches (by simp) (.inr ⟨word, named, rfl⟩)
  constructor
  · intro same word named
    exact same ▸ reached word named
  intro before
  cases read : storeDestination index tokens none with
  | none =>
    refine Option.eq_none_iff_forall_not_mem.mpr fun found scanned => ?_
    obtain ⟨word, named, -⟩ := (scanDestination_named scanned).resolve_left nofun
    obtain ⟨_, held, -⟩ := before word named
    exact nomatch read ▸ held
  | some destination =>
    obtain ⟨word, named, rfl⟩ := (storeDestination_named read).resolve_left nofun
    obtain ⟨found, scanned, reaches⟩ := reached word named
    obtain ⟨last, store, rfl⟩ := (scanDestination_named scanned).resolve_left nofun
    obtain ⟨_, held, bound⟩ := before last store
    obtain rfl := Option.some.inj (read.symm.trans held)
    rw [scanned]
    congr 1
    omega

theorem determineSortKeys_exact (ok : determineSortKeys args = .ok view) :
    view.positions = 1 :: (storeDestination 2 (args.drop 2) none).toList ↔
      ∀ word, StoreWord (args.drop 2) word →
        ∃ destination ∈ storeDestination 2 (args.drop 2) none, 2 + word < destination := by
  rw [← sort_destinations_agree]
  cases scanned : scanDestination 2 (args.drop 2) none with
  | none =>
    rw [determineSortKeys, scanned] at ok
    obtain rfl := Except.ok.inj ok
    rw [show positions ⟨1, 1, 1⟩ = [1] by decide]
    cases storeDestination 2 (args.drop 2) none <;> simp
  | some destination =>
    rw [determineSortKeys, scanned] at ok
    obtain ⟨narrow, made⟩ := refuseIf_bind.mp ok
    obtain rfl := Except.ok.inj made
    have behind : 2 < destination := by
      obtain ⟨word, -, rfl⟩ := (scanDestination_named scanned).resolve_left nofun
      omega
    have two : keyRange 1 (destination % 2 ^ 16) ((destination - 1) % 2 ^ 8) =
        [1, destination] := by
      rw [Nat.mod_eq_of_lt (by omega), Nat.mod_eq_of_lt (by omega), keyRange,
        show destination + (destination - 1) - 1 = 2 * (destination - 1) by omega,
        Nat.mul_div_cancel _ (by omega)]
      simp only [List.range'_succ, List.range'_zero, List.cons.injEq, and_true, true_and]
      omega
    rw [positions_cast (by decide), UInt8.toNat_ofNat', show (1 : UInt16).toNat = 1 from rfl, two]
    cases storeDestination 2 (args.drop 2) none <;> simp

theorem determineStreamKeys_exact {kind : CommandKind}
    (ok : determineStreamKeys kind args = .ok view) :
    view.positions = List.range' (streamsIndex args (if kind = .xreadgroup then 4 else 1) + 1)
      ((args.length - (streamsIndex args (if kind = .xreadgroup then 4 else 1) + 1)) / 2) := by
  unfold determineStreamKeys at ok
  dsimp only at ok
  generalize streamsIndex args (if kind = .xreadgroup then 4 else 1) = streams at ok ⊢
  obtain ⟨balanced, rest⟩ := refuseIf_bind.mp ok
  obtain ⟨near, made⟩ := refuseIf_bind.mp rest
  obtain rfl := Except.ok.inj made
  have remaining : args.length - min (streams + 1) args.length = args.length - (streams + 1) := by
    omega
  rw [remaining] at balanced near ⊢
  have last : streams + (args.length - (streams + 1)) / 2 =
      streams + 1 + (args.length - (streams + 1)) / 2 - 1 := by omega
  rw [last]
  exact positions_consecutive (by omega) (by omega) (by omega)

theorem determineAggregateKeys_exact (ok : determineAggregateKeys spec args = .ok view) :
    view.positions = countedKeys args (if spec.kind ∈ aggregateStoreKinds then 2 else 1) ∧
      ((if spec.kind ∈ aggregateStoreKinds then 2 else 1 : Nat) : Int) +
        integerOf (argument args (if spec.kind ∈ aggregateStoreKinds then 2 else 1)) < 2 ^ 16 := by
  unfold determineAggregateKeys at ok
  dsimp only at ok
  generalize (if spec.kind ∈ aggregateStoreKinds then 2 else 1 : Nat) = index at ok ⊢
  split at ok
  · rename_i keyCount parsed
    obtain ⟨pos, rest⟩ := refuseIf_bind.mp ok
    obtain ⟨near, made⟩ := refuseIf_bind.mp rest
    obtain rfl := Except.ok.inj made
    rw [countedKeys, ← whole_fromCharsInt64 parsed]
    exact ⟨positions_consecutive (by omega) (by omega) (by omega), by omega⟩
  · exact absurd ok (by simp)

theorem determineCountedKeys_exact (ok : determineCountedKeys spec args = .ok view) :
    view.positions = countedKeys args (if spec.kind = .blmpop ∨ spec.kind = .bzmpop then 2 else 1) ∧
      ((if spec.kind = .blmpop ∨ spec.kind = .bzmpop then 2 else 1 : Nat) : Int) +
        integerOf (argument args
          (if spec.kind = .blmpop ∨ spec.kind = .bzmpop then 2 else 1)) < 2 ^ 16 := by
  unfold determineCountedKeys at ok
  dsimp only at ok
  generalize (if spec.kind = .blmpop ∨ spec.kind = .bzmpop then 2 else 1 : Nat) = index
    at ok ⊢
  obtain ⟨-, rest⟩ := refuseIf_bind.mp ok
  obtain ⟨-, rest⟩ := refuseIf_bind.mp rest
  split at rest
  · rename_i count kept
    obtain ⟨parsed, holds⟩ := Option.filter_eq_some_iff.mp kept
    obtain ⟨-, made⟩ := refuseIf_bind.mp rest
    obtain rfl := Except.ok.inj made
    simp only [Bool.and_eq_true, decide_eq_true_eq] at holds
    rw [countedKeys, ← whole_fromCharsUInt64 parsed, Int.toNat_natCast]
    exact ⟨positions_consecutive (by omega) (by omega) (by omega), by omega⟩
  · exact absurd rest (by simp)

theorem determineKeys_exact (steps : 0 < spec.keyStep.toNat)
    (ok : determineKeys spec args = .ok view) :
    view.positions = commandKeys spec args ↔ Representable spec args := by
  simp only [commandKeys, Representable, keyFamily]
  unfold determineKeys at ok
  split at ok
  · rename_i fixed
    simp only [fixed, if_true]
    exact determineKeysByCount_exact steps ok
  rename_i movable
  simp only [movable]
  have branch := (refuseIf_bind.mp ok).2
  unfold determineMovableKeys at branch
  split at branch
  · rename_i group
    simp only [group, if_true]
    split at branch
    · rename_i help
      obtain rfl := Except.ok.inj branch
      simp [help, positions]
    · rename_i request
      simp only [request, if_false, not_false_eq_true, forall_const]
      exact determineKeysByCount_exact steps branch
  rename_i notGroup
  simp only [notGroup, if_false]
  split at branch
  · rename_i script
    simp only [script, if_true]
    exact determineScriptKeys_exact branch
  rename_i notScript
  simp only [notScript, if_false]
  split at branch
  · rename_i sort
    simp only [sort, if_true]
    exact determineSortKeys_exact branch
  rename_i notSort
  simp only [notSort, if_false]
  split at branch
  · rename_i read
    simp only [read, if_true]
    exact iff_true_intro (determineStreamKeys_exact branch)
  rename_i notRead
  simp only [notRead, if_false]
  split at branch
  · rename_i geo
    obtain rfl := Except.ok.inj branch
    simp only [geo, if_true]
    exact iff_true_intro (by decide : positions ⟨1, 1, 1⟩ = [1])
  rename_i notGeo
  simp only [notGeo, if_false]
  split at branch
  · rename_i aggregate
    simp only [aggregate, if_true]
    obtain ⟨exactly, fits⟩ := determineAggregateKeys_exact branch
    exact iff_of_true exactly fits
  · rename_i counted
    simp only [counted, if_false]
    obtain ⟨exactly, fits⟩ := determineCountedKeys_exact branch
    exact iff_of_true exactly fits

end Branches

/-! ## The destination of a SORT -/

structure SortOptions where
  descending : Bool := false
  alpha : Bool := false
  dontSort : Bool := false
  limitStart : Int := 0
  limitCount : Int := -1
  by_ : Option Text := none
  gets : List Text := []
  storeArg : Option Nat := none

variable {next options : SortOptions}

def flagOption (token : Text) (options : SortOptions) : Option SortOptions :=
  if redisEqualsIgnoreCase token (text "asc") then some { options with descending := false }
  else if redisEqualsIgnoreCase token (text "desc") then some { options with descending := true }
  else if redisEqualsIgnoreCase token (text "alpha") then some { options with alpha := true }
  else none

def argumentOption (readOnly : Bool) (index : Nat) (token value : Text) (options : SortOptions) :
    Option SortOptions :=
  if redisEqualsIgnoreCase token (text "by") then
    some { options with by_ := some value, dontSort := !value.contains 42 }
  else if redisEqualsIgnoreCase token (text "get") then
    some { options with gets := options.gets ++ [value] }
  else if !readOnly && redisEqualsIgnoreCase token (text "store") then
    some { options with storeArg := some (index + 1) }
  else none

def parseSortOptions (readOnly : Bool) : Nat → List Text → SortOptions → StatusOr SortOptions
  | index, token :: first :: second :: rest, options =>
    match flagOption token options with
    | some next => parseSortOptions readOnly (index + 1) (first :: second :: rest) next
    | none =>
      if redisEqualsIgnoreCase token (text "limit") then
        match parseRedisInt64 first, parseRedisInt64 second with
        | some start, some count =>
          parseSortOptions readOnly (index + 3) rest
            { options with limitStart := start, limitCount := count }
        | _, _ => .error ⟨.invalidArgument, "value is not an integer or out of range"⟩
      else
        match argumentOption readOnly index token first options with
        | some next => parseSortOptions readOnly (index + 2) (second :: rest) next
        | none => .error ⟨.invalidArgument, "syntax error"⟩
  | index, [token, first], options =>
    match flagOption token options with
    | some next => parseSortOptions readOnly (index + 1) [first] next
    | none =>
      match argumentOption readOnly index token first options with
      | some next => .ok next
      | none => .error ⟨.invalidArgument, "syntax error"⟩
  | _, [token], options =>
    match flagOption token options with
    | some next => .ok next
    | none => .error ⟨.invalidArgument, "syntax error"⟩
  | _, [], options => .ok options

theorem flagOption_returns {token : Text} (flag : flagOption token options = some next) :
    next.storeArg = options.storeArg ∧
      ∀ other ∈ [text "limit", text "by", text "get", text "store"],
        redisEqualsIgnoreCase token other = false := by
  unfold flagOption redisEqualsIgnoreCase at *
  split_ifs at flag with same same same <;> cases flag <;> rw [beq_iff_eq.mp same] <;>
    exact ⟨rfl, by decide⟩

theorem argumentOption_returns {token value : Text}
    (option : argumentOption false index token value options = some next) :
    let store := redisEqualsIgnoreCase token (text "store")
    next.storeArg = (if store then some (index + 1) else options.storeArg) ∧
      (redisEqualsIgnoreCase token (text "by") ∨ redisEqualsIgnoreCase token (text "get") ↔
        store = false) := by
  unfold argumentOption redisEqualsIgnoreCase at *
  split_ifs at option with pattern get store <;> cases option
  · rw [beq_iff_eq.mp pattern]
    exact ⟨rfl, by decide⟩
  · rw [beq_iff_eq.mp get]
    exact ⟨rfl, by decide⟩
  · simp_all

/-- The destination that the option loop of SORT ends with. -/
theorem parseSortOptions_storeArg {tokens : List Text} {final : SortOptions}
    (parsed : parseSortOptions false index tokens options = .ok final) :
    final.storeArg = storeDestination index tokens options.storeArg := by
  fun_induction parseSortOptions false index tokens options with
  | case1 _ _ _ _ _ _ _ flag ih | case6 _ _ _ _ _ flag ih =>
    obtain ⟨same, others⟩ := flagOption_returns flag
    rw [ih parsed, same]
    simp [storeDestination, others]
  | case2 _ _ _ _ _ _ _ limit _ _ _ _ ih =>
    rw [ih parsed]
    simp [storeDestination, limit]
  | case4 _ _ _ _ _ _ _ notLimit _ option ih =>
    obtain ⟨same, takes⟩ := argumentOption_returns option
    rw [ih parsed, same, storeDestination, if_neg notLimit]
    split_ifs <;> simp_all
  | case7 _ _ _ _ _ _ option =>
    cases parsed
    exact (argumentOption_returns option).1
  | case9 _ _ _ _ flag =>
    cases parsed
    exact (flagOption_returns flag).1
  | case11 =>
    cases parsed
    rfl
  | case3 | case5 | case8 | case10 => cases parsed

/-- `SORT k BY store STORE d`. -/
theorem sort_by_store_stores : ∃ final,
    parseSortOptions false 2 (["by", "store", "store", "d"].map text) {} = .ok final ∧
      final.storeArg = some 5 := by
  refine .imp (fun _ parsed => ⟨parsed, (parseSortOptions_storeArg parsed).trans ?_⟩) ⟨_, rfl⟩
  decide

/-! ## Every command of the table -/

theorem keyStep_positive : ∀ spec ∈ commandTable, 0 < spec.keyStep.toNat := by
  decide +kernel

/-- For every command of the table, both forms of `DetermineKeys` name exactly the keys of a request
they accept if and only if the request is representable. -/
theorem key_views_exact_iff_representable {spec : CommandSpec} (listed : spec ∈ commandTable) :
    (∀ args view, determineKeys spec args = .ok view →
      (view.positions = commandKeys spec args ↔ Representable spec args)) ∧
    (∀ argc view, determineKeysByCount spec argc = .ok view →
      (view.positions = spec.fixedKeys argc ↔
        spec.firstKey = 0 ∨ spec.lastKeyIndex argc < 2 ^ 16)) :=
  ⟨fun _ _ accepted => determineKeys_exact (keyStep_positive spec listed) accepted,
    fun _ _ accepted => determineKeysByCount_exact (keyStep_positive spec listed) accepted⟩

def delSpec : CommandSpec := ⟨"del", .del, 2, 0, 1, -1, 1, false⟩

def sortSpec : CommandSpec := ⟨"sort", .sort, 2, 0, 1, 1, 1, true⟩

theorem del_of_two_keys_is_exact :
    determineKeys delSpec [text "DEL", text "a", text "b"] = .ok ⟨1, 2, 1⟩ ∧
      (positions ⟨1, 2, 1⟩ = commandKeys delSpec [text "DEL", text "a", text "b"] ↔
        Representable delSpec [text "DEL", text "a", text "b"]) :=
  ⟨by decide +kernel, (key_views_exact_iff_representable (by decide +kernel)).1 _ _
    (by decide +kernel)⟩

/-- A DEL of 65536 keys names none of them, and a SORT by the pattern `store` names the option
behind it. -/
theorem wide_del_and_pattern_sort_are_not_exact :
    (determineKeys delSpec (List.replicate 65537 (text "k")) = .ok ⟨1, 0, 1⟩ ∧
      positions ⟨1, 0, 1⟩ = [] ∧
      commandKeys delSpec (List.replicate 65537 (text "k")) = List.range' 1 65536) ∧
    (determineKeys sortSpec [text "SORT", text "k", text "BY", text "store", text "ALPHA"] =
        .ok ⟨1, 4, 3⟩ ∧ positions ⟨1, 4, 3⟩ = [1, 4] ∧
      commandKeys sortSpec [text "SORT", text "k", text "BY", text "store", text "ALPHA"] =
        [1]) := by
  refine ⟨⟨?_, by decide, ?_⟩, by decide +kernel, by decide, by decide +kernel⟩
  · have fixed : determineKeys delSpec (List.replicate 65537 (text "k")) =
        determineKeysByCount delSpec 65537 := by
      rw [determineKeys, List.length_replicate]
      rfl
    rw [fixed]
    decide +kernel
  · have fixed : commandKeys delSpec (List.replicate 65537 (text "k")) =
        delSpec.fixedKeys 65537 := by
      rw [commandKeys, List.length_replicate]
      rfl
    have last : (delSpec.lastKeyIndex 65537).toNat = 65536 := by decide
    have first : delSpec.firstKey.toNat = 1 := by decide
    have step : delSpec.keyStep.toNat = 1 := by decide
    rw [fixed, fixedKeys, if_neg (by decide), last, first, step, keyRange, Nat.div_one,
      Nat.add_sub_cancel]

end Lavik.Redis
