import Lavik.Meta.Rollback
/-!
# One owner per group and term

Every committed command moves the authority of a group in at most two ways: it may advance the
term by one, which clears the grant, and it may give a grant in a term that has none.
-/

namespace Lavik.Meta

open Base GroupAuthority

/-! ## Steps -/

variable {env : Environment}

def MetaState.authority (state : MetaState) (groupId : String) : GroupAuthority :=
  state.stores.topology.authority groupId

theorem metaSystem_moves {before after : MetaState} {label : UInt64 × CommittedCommand}
    (step : (metaSystem env).step before label after) (groupId : String) :
    (before.authority groupId).Moves (after.authority groupId) := by
  obtain ⟨_, _, verdict, applied⟩ := step
  unfold MetaState.authority
  obtain ⟨_, _, same⟩ | ⟨_, decided, audit, dispatched, same⟩ := applyCommitted_returns applied
  · rw [same]
    exact Keeps.moves rfl
  rw [same]
  cases verdict with
  | rejected text => exact (dispatch_takesBack dispatched).moves text rfl groupId
  | accepted => exact (dispatch_effect dispatched).course.authority groupId

namespace GroupAuthority

variable {before middle after : GroupAuthority}

/-- What holds between two authorities of one group along a run: the term has not decreased, and
while it is the same a grant has stayed as it was. -/
structure Follows (before after : GroupAuthority) : Prop where
  term : before.groupTerm ≤ after.groupTerm
  grant : after.groupTerm = before.groupTerm → ∀ grant, before.grant = some grant →
    after.grant = some grant

theorem Fences.follows (fenced : before.Fences after) : before.Follows after := by
  rcases fenced with same | ⟨bounded, advanced⟩
  · rw [same]
    exact ⟨UInt64.le_refl _, fun _ _ active => active⟩
  have later : before.groupTerm < after.groupTerm := by
    rw [advanced, UInt64.lt_iff_toNat_lt, toNat_add_one bounded]
    exact Nat.lt_succ_self _
  constructor
  · exact UInt64.le_of_lt later
  · intro same
    rw [same] at later
    exact absurd later (UInt64.lt_irrefl _)

theorem Grants.follows (granted : before.Grants after) : before.Follows after := by
  rcases granted with same | ⟨fenced, grant, given⟩
  · rw [same]
    exact ⟨UInt64.le_refl _, fun _ _ active => active⟩
  constructor
  · simp only [given, UInt64.le_refl]
  · intro _ other active
    rw [fenced] at active
    cases active

theorem Follows.trans (first : before.Follows middle) (second : middle.Follows after) :
    before.Follows after where
  term := UInt64.le_trans first.term second.term
  grant same grant active := by
    have squeezed : middle.groupTerm = before.groupTerm := by
      apply UInt64.le_antisymm _ first.term
      rw [← same]
      exact second.term
    have kept := first.grant squeezed grant active
    exact second.grant (same.trans squeezed.symm) grant kept

theorem Moves.follows (moved : before.Moves after) : before.Follows after := by
  obtain ⟨middle, fenced, granted⟩ := moved
  exact fenced.follows.trans granted.follows

/-- The term becomes active: it has a grant now and had none as the current term before. -/
def Activates (term : UInt64) (before after : GroupAuthority) : Prop :=
  after.groupTerm = term ∧ after.grant.isSome ∧ ¬ (before.groupTerm = term ∧ before.grant.isSome)

end GroupAuthority

theorem metaSystem_follows {before after : MetaState} {labels : List (UInt64 × CommittedCommand)}
    (run : (metaSystem env).Run before labels after) (groupId : String) :
    (before.authority groupId).Follows (after.authority groupId) := by
  induction run with
  | nil state => exact ⟨UInt64.le_refl _, fun _ _ active => active⟩
  | cons step _ ih => exact (metaSystem_moves step groupId).follows.trans ih

/-- **One owner per group and term.** From every state, in particular from every state committed
commands reach from the empty stores: a command moves the authority of a group only by advancing its
term by one without a grant and by granting a term that has no grant; along every run the term does
not decrease and a grant is unchanged while its term lasts; a term that a command activates is not
activated again; and two grants of one term have one owner. -/
theorem one_owner_per_group_term (env : Environment) (groupId : String) (start : MetaState) :
    (∀ label after, (metaSystem env).step start label after →
      (start.authority groupId).Moves (after.authority groupId)) ∧
    (∀ labels after, (metaSystem env).Run start labels after →
      (start.authority groupId).groupTerm ≤ (after.authority groupId).groupTerm ∧
        ((after.authority groupId).groupTerm = (start.authority groupId).groupTerm →
          ∀ grant, (start.authority groupId).grant = some grant →
            (after.authority groupId).grant = some grant)) ∧
    (∀ term label active labels again relabel after, (metaSystem env).step start label active →
      (start.authority groupId).Activates term (active.authority groupId) →
      (metaSystem env).Run active labels again → (metaSystem env).step again relabel after →
      ¬ (again.authority groupId).Activates term (after.authority groupId)) ∧
    (∀ labels after grant other, (metaSystem env).Run start labels after →
      (start.authority groupId).grant = some grant → (after.authority groupId).grant = some other →
      (after.authority groupId).groupTerm = (start.authority groupId).groupTerm →
      other.owner = grant.owner) := by
  refine ⟨?_, ?_, ?_, ?_⟩
  · intro label after stepped
    exact metaSystem_moves stepped groupId
  · intro labels after run
    have follows := metaSystem_follows run groupId
    exact ⟨follows.term, follows.grant⟩
  · intro term label active labels again relabel after _ activated run stepped reactivated
    have run_follows := metaSystem_follows run groupId
    have step_follows := (metaSystem_moves stepped groupId).follows
    obtain ⟨activeTerm, granted, _⟩ := activated
    obtain ⟨afterTerm, _, fresh⟩ := reactivated
    -- The term between the two activations is the activated one, so its grant is still there.
    have between : (again.authority groupId).groupTerm = (active.authority groupId).groupTerm := by
      apply UInt64.le_antisymm _ run_follows.term
      rw [activeTerm, ← afterTerm]
      exact step_follows.term
    obtain ⟨grant, held⟩ := Option.isSome_iff_exists.mp granted
    have kept := run_follows.grant between grant held
    apply fresh
    constructor
    · rw [between, activeTerm]
    · rw [kept]
      rfl
  · intro labels after grant other run active later same
    have kept := (metaSystem_follows run groupId).grant same grant active
    rw [later] at kept
    rw [Option.some.inj kept]

/-! ## A granted term -/

def firstGranted : MetaState := (applyLog permissive {} firstGrant).getD {}

/-- The first term of the group is granted, and whatever is committed later its owner is the node
it was granted to. -/
theorem one_owner_first_grant :
    (metaSystem permissive).Run {} firstGrant firstGranted ∧
      firstGranted.authority "g" = ⟨1, some ⟨"n", none⟩⟩ ∧
      ∀ labels after other, (metaSystem permissive).Run firstGranted labels after →
        (after.authority "g").grant = some other → (after.authority "g").groupTerm = 1 →
        other.owner = "n" := by
  have granted : firstGranted.authority "g" = ⟨1, some ⟨"n", none⟩⟩ := by decide +kernel
  have applied : applyLog permissive {} firstGrant = some firstGranted := by
    have ends : (applyLog permissive {} firstGrant).isSome = true := by decide +kernel
    obtain ⟨final, reached⟩ := Option.isSome_iff_exists.mp ends
    rw [firstGranted, reached, Option.getD_some]
  refine ⟨applyLog_run applied, granted, ?_⟩
  intro labels after other run active term
  have unique := (one_owner_per_group_term permissive "g" firstGranted).2.2.2 labels after
    ⟨"n", none⟩ other run
  exact unique rfl active term

example : (applyLog permissive {} (firstGrant ++
    [(7, ⟨zeroes 16, ⟨"", ""⟩, .fenceGroup ⟨"g", 1, 2⟩⟩)])).map (·.authority "g") =
      some ⟨2, none⟩ := by decide +kernel

end Lavik.Meta
