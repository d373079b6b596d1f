import Lvqr.Config.Reload

set_option autoImplicit false

-- What overlapping reloads leave behind.
namespace Lvqr.Config

namespace Reload

def done : Reload → Bool
  | .reading _ => false
  | .building _ _ _ => false
  | .planned _ stage => stage == .applied
  | .failed => true

def isPlanned : Reload → Bool
  | .reading _ => false
  | .building _ _ _ => false
  | .planned _ _ => true
  | .failed => false

end Reload

def Settled (system : ReloadSystem) : Prop := ∀ reload ∈ system.reloads, reload.done = true

def StemsFrom (handle : HandleConfig) (runtime : Runtime) (plan : Plan) : Prop :=
  handle.build plan.file true = some runtime.hotProvider ∧ runtime.iceSwap = plan.file.meshIceServers ∧
    runtime.hmacSwap = plan.file.hmacPlaybackSecret ∧ plan.warnings = handle.warnings plan.file ∧
    ∃ now, runtime.state = plan.status handle now

structure AllOrNothing (handle : HandleConfig) (file : Option ServeConfigFile) (runtime : Runtime)
    (ops : List ReloadOp) : Prop where
  failed : ∀ (before after : List ReloadOp) (index : Nat) (accepted : Bool) (now : Nat),
    ops = before ++ .advance index accepted now :: after →
      (Machine.run (ReloadSystem.step handle) (ReloadSystem.start file runtime) ops).reloads[index]? = some .failed →
      (Machine.run (ReloadSystem.step handle) (ReloadSystem.start file runtime)
          (before ++ [.advance index accepted now])).runtime =
        (Machine.run (ReloadSystem.step handle) (ReloadSystem.start file runtime) before).runtime
  settled : ∀ system : ReloadSystem,
    system = Machine.run (ReloadSystem.step handle) (ReloadSystem.start file runtime) ops → Settled system →
      (passed system.reloads .record = [] ∧ system.runtime = runtime) ∨
        ∃ (index : Nat) (plan : Plan), system.reloads[index]? = some (.planned plan .applied) ∧
          (∀ (other : Nat) (second : Plan), system.reloads[other]? = some (.planned second .applied) →
            other ≠ index → second.readAt < plan.readAt) ∧ StemsFrom handle system.runtime plan

-- Once its provider is built, a reload cannot fail.
theorem planned_stays (handle : HandleConfig) (system : ReloadSystem) (index : Nat) (op : ReloadOp)
    (planned : (system.reloads[index]?.map Reload.isPlanned) = some true) :
    ((ReloadSystem.step handle system op).reloads[index]?.map Reload.isPlanned) = some true := by
  cases op with
  | edit file => exact planned
  | reload kind =>
      obtain ⟨reload, found, isPlanned⟩ := Option.map_eq_some_iff.mp planned
      have inside : index < system.reloads.length := (List.getElem?_eq_some_iff.mp found).1
      simp only [ReloadSystem.step]
      rw [List.getElem?_append_left inside, found]
      exact congrArg some isPlanned
  | advance moving accepted now =>
      simp only [ReloadSystem.step, ReloadSystem.advance]
      by_cases same : moving = index
      · subst same
        obtain ⟨reload, found, isPlanned⟩ := Option.map_eq_some_iff.mp planned
        have inside : moving < system.reloads.length := (List.getElem?_eq_some_iff.mp found).1
        cases reload with
        | planned plan stage =>
            simp only [found]
            rw [List.getElem?_set_self inside]
            rfl
        | reading kind => cases isPlanned
        | building kind file readAt => cases isPlanned
        | failed => cases isPlanned
      · split
        · rwa [List.getElem?_set_ne same]
        · rwa [List.getElem?_set_ne same]
        · rwa [List.getElem?_set_ne same]
        · exact planned
        · exact planned

theorem failing_untouched (handle : HandleConfig) (system : ReloadSystem) (index : Nat) (accepted : Bool) (now : Nat)
    (after : List ReloadOp)
    (failed : (Machine.run (ReloadSystem.step handle) (system.advance handle index accepted now) after).reloads[index]? =
      some .failed) :
    (system.advance handle index accepted now).runtime = system.runtime := by
  cases found : system.reloads[index]? with
  | none => simp only [ReloadSystem.advance, found]
  | some reload =>
      cases reload with
      | reading kind => simp only [ReloadSystem.advance, found]
      | building kind file readAt => simp only [ReloadSystem.advance, found]
      | failed => simp only [ReloadSystem.advance, found]
      | planned plan stage =>
          let Inv : ReloadSystem → Prop := fun system => (system.reloads[index]?.map Reload.isPlanned) = some true
          have planned : Inv system := by simp only [Inv, found]; rfl
          have keeps : ∀ system op, Inv system → Inv (ReloadSystem.step handle system op) :=
            fun system op => planned_stays handle system index op
          have stays := Machine.invariant_of_run keeps system (.advance index accepted now :: after) planned
          simp only [Inv, Machine.run_cons, ReloadSystem.step] at stays
          rw [failed] at stays
          cases stays

theorem applied_of_settled (system : ReloadSystem) (settled : Settled system) (stage : Stage) (plan : Plan)
    (member : plan ∈ passed system.reloads stage) : .planned plan .applied ∈ system.reloads := by
  obtain ⟨reload, inside, past⟩ := List.mem_filterMap.mp member
  have done := settled reload inside
  cases reload with
  | reading kind => cases past
  | building kind file readAt => cases past
  | failed => cases past
  | planned other reached =>
      obtain rfl : reached = .applied := by simpa [Reload.done] using done
      simp only [Reload.past] at past
      split at past
      · rwa [← Option.some.inj past]
      · cases past

theorem passed_of_applied (reloads : List Reload) (stage : Stage) (plan : Plan) (writes : stage.writes = true)
    (member : .planned plan .applied ∈ reloads) : plan ∈ passed reloads stage := by
  refine List.mem_filterMap.mpr ⟨_, member, ?_⟩
  cases stage <;> first | rfl | exact absurd writes Bool.false_ne_true

-- The owners of two places are reloads with one number, hence one reload.
theorem owner_everywhere (handle : HandleConfig) (initial : Runtime) (system : ReloadSystem)
    (sound : Sound handle initial system) (settled : Settled system) (stage : Stage) (writes : stage.writes = true)
    (plan : Plan) (member : .planned plan .applied ∈ system.reloads)
    (last : ∀ other : Plan, .planned other .applied ∈ system.reloads → other.readAt ≤ plan.readAt) :
    plan.Holds handle system.runtime stage := by
  have here := passed_of_applied system.reloads stage plan writes member
  rcases sound.owned stage writes with ⟨nobody, _⟩ | ⟨owner, owns, latest, holds⟩
  · rw [nobody] at here
    cases here
  · have applied := applied_of_settled system settled stage owner owns
    have equal : owner.readAt = plan.readAt := Nat.le_antisymm (last owner applied) (latest plan here)
    obtain ⟨one, foundOne⟩ := List.mem_iff_getElem?.mp applied
    obtain ⟨other, foundOther⟩ := List.mem_iff_getElem?.mp member
    have same := sound.apart one other _ _ plan.readAt foundOne foundOther (congrArg some equal) rfl
    rw [same, foundOther] at foundOne
    cases foundOne
    exact holds

theorem settled_runtime (handle : HandleConfig) (initial : Runtime) (system : ReloadSystem)
    (sound : Sound handle initial system) (settled : Settled system) :
    (passed system.reloads .record = [] ∧ system.runtime = initial) ∨
      ∃ (index : Nat) (plan : Plan), system.reloads[index]? = some (.planned plan .applied) ∧
        (∀ (other : Nat) (second : Plan), system.reloads[other]? = some (.planned second .applied) →
          other ≠ index → second.readAt < plan.readAt) ∧ StemsFrom handle system.runtime plan := by
  rcases sound.owned .record rfl with ⟨nobody, stateKept⟩ | ⟨plan, owns, latest, _⟩
  · have untouched : ∀ stage : Stage, stage.writes = true → Untouched initial system.runtime stage := by
      intro stage writes
      rcases sound.owned stage writes with ⟨_, kept⟩ | ⟨owner, owns, _⟩
      · exact kept
      · have applied := applied_of_settled system settled stage owner owns
        have recorded := passed_of_applied system.reloads .record owner rfl applied
        rw [nobody] at recorded
        cases recorded
    have provider : system.runtime.hotProvider = initial.hotProvider := untouched .swapProvider rfl
    have ice : system.runtime.iceSwap = initial.iceSwap := untouched .storeIce rfl
    have hmac : system.runtime.hmacSwap = initial.hmacSwap := untouched .storeHmac rfl
    have state : system.runtime.state = initial.state := stateKept
    refine Or.inl ⟨nobody, ?_⟩
    change Runtime.mk system.runtime.hotProvider system.runtime.iceSwap system.runtime.hmacSwap system.runtime.state =
      Runtime.mk initial.hotProvider initial.iceSwap initial.hmacSwap initial.state
    rw [provider, ice, hmac, state]
  · have applied := applied_of_settled system settled .record plan owns
    have last : ∀ other : Plan, .planned other .applied ∈ system.reloads → other.readAt ≤ plan.readAt :=
      fun other member => latest other (passed_of_applied system.reloads .record other rfl member)
    have holds := fun stage writes => owner_everywhere handle initial system sound settled stage writes plan applied last
    obtain ⟨index, found⟩ := List.mem_iff_getElem?.mp applied
    refine Or.inr ⟨index, plan, found, ?_, ?_⟩
    · intro other second foundOther apart
      refine Nat.lt_of_le_of_ne (last second (List.mem_of_getElem? foundOther)) ?_
      intro equal
      exact apart (sound.apart other index _ _ plan.readAt foundOther found (congrArg some equal) rfl)
    · have faithful := sound.faithful _ applied
      have provider : system.runtime.hotProvider = plan.chain := holds .swapProvider rfl
      refine ⟨?_, holds .storeIce rfl, holds .storeHmac rfl, faithful.2, holds .record rfl⟩
      rw [provider]
      exact faithful.1

theorem reloads_all_or_nothing (handle : HandleConfig) (file : Option ServeConfigFile) (runtime : Runtime)
    (ops : List ReloadOp)
    (inOrder : Machine.AllSteps InOrder (ReloadSystem.step handle) (ReloadSystem.start file runtime) ops) :
    AllOrNothing handle file runtime ops where
  failed := by
    intro before after index accepted now split failed
    rw [split, Machine.run_append, Machine.run_cons] at failed
    rw [Machine.run_snoc]
    exact failing_untouched handle _ index accepted now after failed
  settled := by
    intro system ran settled
    rw [ran] at settled ⊢
    exact settled_runtime handle runtime _ (run_sound handle file runtime ops inOrder) settled

def staticHandle : HandleConfig :=
  ⟨⟨false, false⟩, ⟨none, none, none, none, none, none⟩, none, none, false, false⟩

def adminFile (token : String) : ServeConfigFile :=
  ⟨⟨some token, none, none, none, none, none, none, none⟩, [], some token⟩

def bootRuntime : Runtime := ⟨⟨.noop, false⟩, [], none, ⟨none, none, [], [], none, none⟩⟩

def wholeReload (index : Nat) : List ReloadOp := List.replicate 9 (.advance index true 0)

theorem one_reload_all_or_nothing :
    AllOrNothing staticHandle (some (adminFile "first")) bootRuntime (.reload "sighup" :: wholeReload 0) :=
  reloads_all_or_nothing staticHandle (some (adminFile "first")) bootRuntime (.reload "sighup" :: wholeReload 0)
    (by decide)

-- The second reload has swapped the provider when the first, on the older file,
-- runs through, and stores the rest after it.
def overlapping : List ReloadOp :=
  [.reload "sighup", .advance 0 true 0, .edit (some (adminFile "second")), .reload "admin"] ++
    List.replicate 6 (.advance 1 true 0) ++ List.replicate 8 (.advance 0 true 0) ++
    List.replicate 3 (.advance 1 true 0)

theorem overlapping_reloads_mix :
    ¬ AllOrNothing staticHandle (some (adminFile "first")) bootRuntime overlapping := by
  intro allOrNothing
  have mixed : ∀ plan ∈ passed (Machine.run (ReloadSystem.step staticHandle)
      (ReloadSystem.start (some (adminFile "first")) bootRuntime) overlapping).reloads .record,
      ¬(staticHandle.build plan.file true = some (Machine.run (ReloadSystem.step staticHandle)
          (ReloadSystem.start (some (adminFile "first")) bootRuntime) overlapping).runtime.hotProvider ∧
        (Machine.run (ReloadSystem.step staticHandle)
          (ReloadSystem.start (some (adminFile "first")) bootRuntime) overlapping).runtime.hmacSwap =
            plan.file.hmacPlaybackSecret) := by decide
  rcases allOrNothing.settled _ rfl (by unfold Settled; decide) with
    ⟨nobody, _⟩ | ⟨index, plan, found, _, provider, _, hmac, _⟩
  · exact absurd nobody (by decide)
  · have member := passed_of_applied _ .record plan rfl (List.mem_of_getElem? found)
    exact mixed plan member ⟨provider, hmac⟩

end Lvqr.Config
