import Lvqr.Config.Provider
import Lvqr.Lib.Machine

set_option autoImplicit false

-- Reloads of the configuration file, step by step: the file is read, the provider
-- is built behind an await, the prior values are loaded for the diff, and three
-- swaps and the status follow one after another. Nothing keeps reloads apart.
namespace Lvqr.Config

structure ReloadState where
  lastReloadAtMs : Option Nat
  lastReloadKind : Option String
  appliedKeys : List String
  warnings : List String
  priorJwksUrl : Option String
  priorWebhookUrl : Option String
deriving DecidableEq, Repr

-- What the server runs with.
structure Runtime where
  hotProvider : AuthChain
  iceSwap : List IceServer
  hmacSwap : Option String
  state : ReloadState
deriving DecidableEq, Repr

inductive Stage where
  | loadIce
  | loadHmac
  | loadUrls
  | swapProvider
  | storeIce
  | storeHmac
  | record
  | applied
deriving DecidableEq, Repr

namespace Stage

def order : Stage → Nat
  | loadIce => 0
  | loadHmac => 1
  | loadUrls => 2
  | swapProvider => 3
  | storeIce => 4
  | storeHmac => 5
  | record => 6
  | applied => 7

def writes : Stage → Bool
  | loadIce => false
  | loadHmac => false
  | loadUrls => false
  | swapProvider => true
  | storeIce => true
  | storeHmac => true
  | record => true
  | applied => false

def next : Stage → Stage
  | loadIce => loadHmac
  | loadHmac => loadUrls
  | loadUrls => swapProvider
  | swapProvider => storeIce
  | storeIce => storeHmac
  | storeHmac => record
  | record => applied
  | applied => applied

end Stage

-- A reload past its await: the file it read, the provider it built, and what its
-- diff has found so far. Reads of the file are numbered.
structure Plan where
  kind : String
  file : ServeConfigFile
  readAt : Nat
  chain : AuthChain
  warnings : List String
  iceChanged : Bool
  hmacChanged : Bool
  jwksChanged : Bool
  webhookChanged : Bool
deriving DecidableEq, Repr

namespace Plan

def appliedKeys (plan : Plan) : List String :=
  ["auth"] ++ (if plan.iceChanged then ["mesh_ice"] else []) ++ (if plan.hmacChanged then ["hmac_secret"] else []) ++
    (if plan.jwksChanged then ["jwks"] else []) ++ (if plan.webhookChanged then ["webhook"] else [])

def load (handle : HandleConfig) (runtime : Runtime) (plan : Plan) : Stage → Plan
  | .loadIce => { plan with iceChanged := runtime.iceSwap != plan.file.meshIceServers }
  | .loadHmac => { plan with hmacChanged := runtime.hmacSwap != plan.file.hmacPlaybackSecret }
  | .loadUrls =>
      { plan with
        jwksChanged := runtime.state.priorJwksUrl != handle.effectiveJwksUrl plan.file
        webhookChanged := runtime.state.priorWebhookUrl != handle.effectiveWebhookUrl plan.file }
  | .swapProvider => plan
  | .storeIce => plan
  | .storeHmac => plan
  | .record => plan
  | .applied => plan

def status (handle : HandleConfig) (plan : Plan) (now : Nat) : ReloadState where
  lastReloadAtMs := some now
  lastReloadKind := some plan.kind
  appliedKeys := plan.appliedKeys
  warnings := plan.warnings
  priorJwksUrl := handle.effectiveJwksUrl plan.file
  priorWebhookUrl := handle.effectiveWebhookUrl plan.file

def store (handle : HandleConfig) (runtime : Runtime) (plan : Plan) (now : Nat) : Stage → Runtime
  | .loadIce => runtime
  | .loadHmac => runtime
  | .loadUrls => runtime
  | .swapProvider => { runtime with hotProvider := plan.chain }
  | .storeIce => { runtime with iceSwap := plan.file.meshIceServers }
  | .storeHmac => { runtime with hmacSwap := plan.file.hmacPlaybackSecret }
  | .record => { runtime with state := plan.status handle now }
  | .applied => runtime

end Plan

inductive Reload where
  | reading (kind : String)
  | building (kind : String) (file : ServeConfigFile) (readAt : Nat)
  | planned (plan : Plan) (stage : Stage)
  | failed
deriving DecidableEq, Repr

-- The file is what reading and parsing it yields, if anything.
structure ReloadSystem where
  file : Option ServeConfigFile
  runtime : Runtime
  reads : Nat
  reloads : List Reload
deriving DecidableEq, Repr

-- A provider that does not come up fails its reload, and so does a caller that
-- goes away while it waits.
inductive ReloadOp where
  | edit (file : Option ServeConfigFile)
  | reload (kind : String)
  | advance (index : Nat) (accepted : Bool) (now : Nat)
deriving DecidableEq, Repr

namespace ReloadSystem

def start (file : Option ServeConfigFile) (runtime : Runtime) : ReloadSystem := ⟨file, runtime, 0, []⟩

def read (system : ReloadSystem) (kind : String) : Reload :=
  match system.file with
  | none => .failed
  | some file =>
      if file.auth.jwksUrl.isSome && file.auth.webhookAuthUrl.isSome then .failed
      else .building kind file system.reads

def built (handle : HandleConfig) (kind : String) (file : ServeConfigFile) (readAt : Nat) (accepted : Bool) : Reload :=
  match handle.build file accepted with
  | none => .failed
  | some chain => .planned ⟨kind, file, readAt, chain, handle.warnings file, false, false, false, false⟩ .loadIce

def advance (handle : HandleConfig) (system : ReloadSystem) (index : Nat) (accepted : Bool) (now : Nat) : ReloadSystem :=
  match system.reloads[index]? with
  | some (.reading kind) =>
      { system with reads := system.reads + 1, reloads := system.reloads.set index (system.read kind) }
  | some (.building kind file readAt) =>
      { system with reloads := system.reloads.set index (built handle kind file readAt accepted) }
  | some (.planned plan stage) =>
      { system with
        runtime := plan.store handle system.runtime now stage
        reloads := system.reloads.set index (.planned (plan.load handle system.runtime stage) stage.next) }
  | some .failed => system
  | none => system

def step (handle : HandleConfig) (system : ReloadSystem) : ReloadOp → ReloadSystem
  | .edit file => { system with file := file }
  | .reload kind => { system with reloads := system.reloads ++ [.reading kind] }
  | .advance index accepted now => system.advance handle index accepted now

end ReloadSystem

-- The plans that have passed a stage.
def Reload.past (stage : Stage) : Reload → Option Plan
  | .reading _ => none
  | .building _ _ _ => none
  | .planned plan reached => if stage.order < reached.order then some plan else none
  | .failed => none

def Reload.readAt : Reload → Option Nat
  | .reading _ => none
  | .building _ _ readAt => some readAt
  | .planned plan _ => some plan.readAt
  | .failed => none

def passed (reloads : List Reload) (stage : Stage) : List Plan := reloads.filterMap (Reload.past stage)

-- A reload writes only where no reload that read the file later has written.
def Reload.writesInOrder (reloads : List Reload) : Reload → Prop
  | .reading _ => True
  | .building _ _ _ => True
  | .planned plan stage => stage.writes = true → ∀ other ∈ passed reloads stage, other.readAt ≤ plan.readAt
  | .failed => True

instance Reload.decidableWritesInOrder (reloads : List Reload) : DecidablePred (Reload.writesInOrder reloads)
  | .reading _ => inferInstanceAs (Decidable True)
  | .building _ _ _ => inferInstanceAs (Decidable True)
  | .planned plan stage =>
      inferInstanceAs (Decidable (stage.writes = true → ∀ other ∈ passed reloads stage, other.readAt ≤ plan.readAt))
  | .failed => inferInstanceAs (Decidable True)

def InOrder (system : ReloadSystem) : ReloadOp → Prop
  | .edit _ => True
  | .reload _ => True
  | .advance index _ _ => ∀ reload ∈ system.reloads[index]?, reload.writesInOrder system.reloads

instance (system : ReloadSystem) : DecidablePred (InOrder system)
  | .edit _ => inferInstanceAs (Decidable True)
  | .reload _ => inferInstanceAs (Decidable True)
  | .advance index _ _ =>
      inferInstanceAs (Decidable (∀ reload ∈ system.reloads[index]?, reload.writesInOrder system.reloads))

theorem passed_set_same (reloads : List Reload) (index : Nat) (stage : Stage) (old new : Reload)
    (found : reloads[index]? = some old) (same : new.past stage = old.past stage) :
    passed (reloads.set index new) stage = passed reloads stage := by
  induction reloads generalizing index with
  | nil => rfl
  | cons head rest ih =>
      cases index with
      | zero =>
          obtain rfl : head = old := by simpa using found
          rw [List.set_cons_zero, passed, passed, List.filterMap_cons, List.filterMap_cons, same]
      | succ index =>
          have kept := ih index (by simpa using found)
          rw [List.set_cons_succ, passed, passed, List.filterMap_cons, List.filterMap_cons]
          rw [passed, passed] at kept
          rw [kept]

theorem mem_passed_set (reloads : List Reload) (index : Nat) (stage : Stage) (old new : Reload) (plan : Plan)
    (found : reloads[index]? = some old) (past : new.past stage = some plan) :
    plan ∈ passed (reloads.set index new) stage := by
  have inside : index < reloads.length := (List.getElem?_eq_some_iff.mp found).1
  exact List.mem_filterMap.mpr ⟨new, List.mem_set inside new, past⟩

theorem passed_of_mem_set (reloads : List Reload) (index : Nat) (stage : Stage) (new : Reload) (plan : Plan)
    (member : plan ∈ passed (reloads.set index new) stage) :
    new.past stage = some plan ∨ plan ∈ passed reloads stage := by
  obtain ⟨reload, inSet, past⟩ := List.mem_filterMap.mp member
  rcases List.mem_or_eq_of_mem_set inSet with before | rfl
  · exact Or.inr (List.mem_filterMap.mpr ⟨reload, before, past⟩)
  · exact Or.inl past

theorem passed_append_reading (reloads : List Reload) (stage : Stage) (kind : String) :
    passed (reloads ++ [.reading kind]) stage = passed reloads stage := by
  rw [passed, List.filterMap_append]
  exact List.append_nil _

-- A step past a stage passes no other stage that writes, and has loaded all it loads.
theorem past_next (handle : HandleConfig) (runtime : Runtime) (plan : Plan) (reached stage : Stage)
    (writes : stage.writes = true) (other : reached ≠ stage) :
    (Reload.planned (plan.load handle runtime reached) reached.next).past stage =
      (Reload.planned plan reached).past stage := by
  cases stage <;> cases reached <;>
    first | rfl | exact absurd writes Bool.false_ne_true | exact absurd rfl other

theorem past_own (handle : HandleConfig) (runtime : Runtime) (plan : Plan) (stage : Stage)
    (writes : stage.writes = true) :
    (Reload.planned (plan.load handle runtime stage) stage.next).past stage = some plan := by
  cases stage <;> first | rfl | exact absurd writes Bool.false_ne_true

-- What a reload that has passed a stage has left there.
def Plan.Holds (handle : HandleConfig) (runtime : Runtime) (plan : Plan) : Stage → Prop
  | .loadIce => True
  | .loadHmac => True
  | .loadUrls => True
  | .swapProvider => runtime.hotProvider = plan.chain
  | .storeIce => runtime.iceSwap = plan.file.meshIceServers
  | .storeHmac => runtime.hmacSwap = plan.file.hmacPlaybackSecret
  | .record => ∃ now, runtime.state = plan.status handle now
  | .applied => True

def Untouched (initial runtime : Runtime) : Stage → Prop
  | .loadIce => True
  | .loadHmac => True
  | .loadUrls => True
  | .swapProvider => runtime.hotProvider = initial.hotProvider
  | .storeIce => runtime.iceSwap = initial.iceSwap
  | .storeHmac => runtime.hmacSwap = initial.hmacSwap
  | .record => runtime.state = initial.state
  | .applied => True

theorem holds_store (handle : HandleConfig) (runtime : Runtime) (plan : Plan) (now : Nat) (stage : Stage) :
    (plan.load handle runtime stage).Holds handle (plan.store handle runtime now stage) stage := by
  cases stage with
  | record => exact ⟨now, rfl⟩
  | loadIce => trivial
  | loadHmac => trivial
  | loadUrls => trivial
  | swapProvider => rfl
  | storeIce => rfl
  | storeHmac => rfl
  | applied => trivial

theorem load_writes (handle : HandleConfig) (runtime : Runtime) (plan : Plan) (stage : Stage)
    (writes : stage.writes = true) : plan.load handle runtime stage = plan := by
  cases stage <;> first | rfl | exact absurd writes Bool.false_ne_true

theorem holds_elsewhere (handle : HandleConfig) (runtime : Runtime) (plan owner : Plan) (now : Nat)
    (reached stage : Stage) (other : reached ≠ stage) :
    owner.Holds handle (plan.store handle runtime now reached) stage ↔ owner.Holds handle runtime stage := by
  cases stage <;> cases reached <;> first | exact Iff.rfl | exact absurd rfl other

theorem untouched_elsewhere (handle : HandleConfig) (initial runtime : Runtime) (plan : Plan) (now : Nat)
    (reached stage : Stage) (other : reached ≠ stage) :
    Untouched initial (plan.store handle runtime now reached) stage ↔ Untouched initial runtime stage := by
  cases stage <;> cases reached <;> first | exact Iff.rfl | exact absurd rfl other

-- Each place holds what the last to read the file, of those that wrote there, has put.
def Owned (handle : HandleConfig) (initial : Runtime) (system : ReloadSystem) (stage : Stage) : Prop :=
  (passed system.reloads stage = [] ∧ Untouched initial system.runtime stage) ∨
    ∃ owner ∈ passed system.reloads stage, (∀ other ∈ passed system.reloads stage, other.readAt ≤ owner.readAt) ∧
      owner.Holds handle system.runtime stage

theorem owned_same (handle : HandleConfig) (initial : Runtime) (system next : ReloadSystem) (stage : Stage)
    (same : passed next.reloads stage = passed system.reloads stage)
    (holds : ∀ owner : Plan, owner.Holds handle next.runtime stage ↔ owner.Holds handle system.runtime stage)
    (untouched : Untouched initial next.runtime stage ↔ Untouched initial system.runtime stage)
    (owned : Owned handle initial system stage) : Owned handle initial next stage := by
  rw [Owned, same]
  rcases owned with ⟨nobody, was⟩ | ⟨owner, member, last, was⟩
  · exact Or.inl ⟨nobody, untouched.mpr was⟩
  · exact Or.inr ⟨owner, member, last, (holds owner).mpr was⟩

theorem owned_advance (handle : HandleConfig) (initial : Runtime) (system : ReloadSystem) (index now : Nat)
    (plan : Plan) (reached stage : Stage) (writes : stage.writes = true)
    (found : system.reloads[index]? = some (.planned plan reached))
    (inOrder : (Reload.planned plan reached).writesInOrder system.reloads)
    (owned : Owned handle initial system stage) :
    Owned handle initial
      { system with
        runtime := plan.store handle system.runtime now reached
        reloads := system.reloads.set index (.planned (plan.load handle system.runtime reached) reached.next) }
      stage := by
  by_cases own : reached = stage
  · subst own
    refine Or.inr ⟨plan, ?_, ?_, ?_⟩
    · exact mem_passed_set _ index reached _ _ plan found (past_own handle system.runtime plan reached writes)
    · intro other member
      rcases passed_of_mem_set _ _ _ _ _ member with new | before
      · rw [past_own handle system.runtime plan reached writes] at new
        exact Nat.le_of_eq (congrArg Plan.readAt (Option.some.inj new)).symm
      · exact inOrder writes other before
    · have holds := holds_store handle system.runtime plan now reached
      rwa [load_writes handle system.runtime plan reached writes] at holds
  · refine owned_same handle initial system _ stage ?_ ?_ ?_ owned
    · exact passed_set_same _ index stage _ _ found (past_next handle system.runtime plan reached stage writes own)
    · exact fun owner => holds_elsewhere handle system.runtime plan owner now reached stage own
    · exact untouched_elsewhere handle initial system.runtime plan now reached stage own

def Apart (reloads : List Reload) : Prop :=
  ∀ (one other : Nat) (first second : Reload) (readAt : Nat), reloads[one]? = some first →
    reloads[other]? = some second → first.readAt = some readAt → second.readAt = some readAt → one = other

theorem apart_set (reloads : List Reload) (index : Nat) (new : Reload)
    (fresh : ∀ (other : Nat) (second : Reload) (readAt : Nat), reloads[other]? = some second →
      new.readAt = some readAt → second.readAt = some readAt → index = other)
    (apart : Apart reloads) : Apart (reloads.set index new) := by
  intro one other first second readAt foundOne foundOther readOne readOther
  rw [List.getElem?_set] at foundOne foundOther
  split at foundOne
  · rename_i atOne
    split at foundOther
    · rename_i atOther
      exact atOne.symm.trans atOther
    · split at foundOne
      · cases foundOne
        exact atOne.symm.trans (fresh other second readAt foundOther readOne readOther)
      · cases foundOne
  · split at foundOther
    · rename_i atOther
      split at foundOther
      · cases foundOther
        exact (fresh one first readAt foundOne readOther readOne).symm.trans atOther
      · cases foundOther
    · exact apart one other first second readAt foundOne foundOther readOne readOther

theorem append_reading_before {reloads : List Reload} {kind : String} {index readAt : Nat} {reload : Reload}
    (found : (reloads ++ [.reading kind])[index]? = some reload) (reads : reload.readAt = some readAt) :
    reloads[index]? = some reload := by
  rcases Nat.lt_or_ge index reloads.length with inside | outside
  · rwa [List.getElem?_append_left inside] at found
  · rw [List.getElem?_append_right outside] at found
    rw [List.mem_singleton.mp (List.mem_of_getElem? found)] at reads
    cases reads

def Reload.Faithful (handle : HandleConfig) : Reload → Prop
  | .reading _ => True
  | .building _ _ _ => True
  | .planned plan _ => handle.build plan.file true = some plan.chain ∧ plan.warnings = handle.warnings plan.file
  | .failed => True

structure Sound (handle : HandleConfig) (initial : Runtime) (system : ReloadSystem) : Prop where
  owned : ∀ stage : Stage, stage.writes = true → Owned handle initial system stage
  counted : ∀ reload ∈ system.reloads, ∀ readAt, reload.readAt = some readAt → readAt < system.reads
  apart : Apart system.reloads
  faithful : ∀ reload ∈ system.reloads, reload.Faithful handle

theorem start_sound (handle : HandleConfig) (file : Option ServeConfigFile) (runtime : Runtime) :
    Sound handle runtime (ReloadSystem.start file runtime) where
  owned := by
    intro stage _
    refine Or.inl ⟨rfl, ?_⟩
    cases stage <;> first | rfl | trivial
  counted := fun reload member => nomatch member
  apart := by
    intro one other first second readAt foundOne
    cases foundOne
  faithful := fun reload member => nomatch member

-- A reload moves on under the number its file was read with, or takes the next one.
theorem set_sound (handle : HandleConfig) (initial : Runtime) (system next : ReloadSystem) (index : Nat)
    (old new : Reload) (found : system.reloads[index]? = some old) (sound : Sound handle initial system)
    (moved : next.reloads = system.reloads.set index new) (later : system.reads ≤ next.reads)
    (numbered : ∀ readAt, new.readAt = some readAt →
      old.readAt = some readAt ∨ system.reads ≤ readAt ∧ readAt < next.reads)
    (owned : ∀ stage : Stage, stage.writes = true → Owned handle initial next stage)
    (faithful : new.Faithful handle) : Sound handle initial next where
  owned := owned
  counted := by
    intro reload member readAt reads
    rw [moved] at member
    rcases List.mem_or_eq_of_mem_set member with before | rfl
    · exact Nat.lt_of_lt_of_le (sound.counted reload before readAt reads) later
    · rcases numbered readAt reads with kept | fresh
      · exact Nat.lt_of_lt_of_le (sound.counted old (List.mem_of_getElem? found) readAt kept) later
      · exact fresh.2
  apart := by
    rw [moved]
    refine apart_set system.reloads index new ?_ sound.apart
    intro other second readAt foundOther reads readOther
    rcases numbered readAt reads with kept | fresh
    · exact sound.apart index other old second readAt found foundOther kept readOther
    · have before := sound.counted second (List.mem_of_getElem? foundOther) readAt readOther
      exact absurd before (Nat.not_lt.mpr fresh.1)
  faithful := by
    intro reload member
    rw [moved] at member
    rcases List.mem_or_eq_of_mem_set member with before | rfl
    · exact sound.faithful reload before
    · exact faithful

-- A reload that has not begun to write, under the number its file was read with.
structure Waits (handle : HandleConfig) (readAt : Nat) (reload : Reload) : Prop where
  past : ∀ stage : Stage, reload.past stage = none
  number : ∀ other, reload.readAt = some other → other = readAt
  faithful : reload.Faithful handle

theorem read_waits (handle : HandleConfig) (system : ReloadSystem) (kind : String) :
    Waits handle system.reads (system.read kind) := by
  unfold ReloadSystem.read
  cases system.file with
  | none => exact ⟨fun _ => rfl, fun _ reads => (nomatch reads), trivial⟩
  | some file =>
      by_cases both : (file.auth.jwksUrl.isSome && file.auth.webhookAuthUrl.isSome) = true
      · simp only [if_pos both]
        exact ⟨fun _ => rfl, fun _ reads => (nomatch reads), trivial⟩
      · simp only [if_neg both]
        exact ⟨fun _ => rfl, fun _ reads => (Option.some.inj reads).symm, trivial⟩

theorem built_waits (handle : HandleConfig) (kind : String) (file : ServeConfigFile) (readAt : Nat) (accepted : Bool) :
    Waits handle readAt (ReloadSystem.built handle kind file readAt accepted) := by
  unfold ReloadSystem.built
  cases built : handle.build file accepted with
  | none => exact ⟨fun _ => rfl, fun _ reads => (nomatch reads), trivial⟩
  | some chain =>
      refine ⟨?_, fun _ reads => (Option.some.inj reads).symm, build_accepted handle file accepted chain built, rfl⟩
      intro stage
      simp [Reload.past, Stage.order]

theorem waiting_sound (handle : HandleConfig) (initial : Runtime) (system next : ReloadSystem) (index readAt : Nat)
    (old new : Reload) (found : system.reloads[index]? = some old) (sound : Sound handle initial system)
    (moved : next.reloads = system.reloads.set index new) (later : system.reads ≤ next.reads)
    (kept : next.runtime = system.runtime) (waiting : ∀ stage : Stage, old.past stage = none)
    (waits : Waits handle readAt new)
    (numbered : old.readAt = some readAt ∨ system.reads ≤ readAt ∧ readAt < next.reads) : Sound handle initial next := by
  refine set_sound handle initial system next index old new found sound moved later ?_ ?_ waits.faithful
  · intro other reads
    rwa [waits.number other reads]
  · intro stage writes
    refine owned_same handle initial system next stage ?_ ?_ ?_ (sound.owned stage writes)
    · rw [moved]
      exact passed_set_same _ index stage old new found ((waits.past stage).trans (waiting stage).symm)
    · intro owner
      rw [kept]
    · rw [kept]

theorem advance_sound (handle : HandleConfig) (initial : Runtime) (system : ReloadSystem) (index now : Nat)
    (accepted : Bool) (sound : Sound handle initial system)
    (inOrder : InOrder system (.advance index accepted now)) :
    Sound handle initial (system.advance handle index accepted now) := by
  unfold ReloadSystem.advance
  cases found : system.reloads[index]? with
  | none => exact sound
  | some reload =>
      cases reload with
      | reading kind =>
          exact waiting_sound handle initial system _ index system.reads _ _ found sound rfl (Nat.le_succ _) rfl
            (fun _ => rfl) (read_waits handle system kind) (Or.inr ⟨Nat.le_refl _, Nat.lt_succ_self _⟩)
      | building kind file readAt =>
          exact waiting_sound handle initial system _ index readAt _ _ found sound rfl (Nat.le_refl _) rfl
            (fun _ => rfl) (built_waits handle kind file readAt accepted) (Or.inl rfl)
      | planned plan reached =>
          have guarded := inOrder (.planned plan reached) found
          refine set_sound handle initial system _ index _ _ found sound rfl (Nat.le_refl _) ?_ ?_ ?_
          · intro readAt reads
            refine Or.inl ?_
            rw [← reads]
            cases reached <;> rfl
          · intro stage writes
            exact owned_advance handle initial system index now plan reached stage writes found guarded
              (sound.owned stage writes)
          · have faithful := sound.faithful _ (List.mem_of_getElem? found)
            cases reached <;> exact faithful
      | failed => exact sound

theorem step_sound (handle : HandleConfig) (initial : Runtime) (system : ReloadSystem) (op : ReloadOp)
    (sound : Sound handle initial system) (inOrder : InOrder system op) :
    Sound handle initial (ReloadSystem.step handle system op) := by
  cases op with
  | edit file =>
      exact
        { owned := fun stage writes =>
            owned_same handle initial system _ stage rfl (fun _ => Iff.rfl) Iff.rfl (sound.owned stage writes)
          counted := sound.counted
          apart := sound.apart
          faithful := sound.faithful }
  | reload kind =>
      refine { owned := ?_, counted := ?_, apart := ?_, faithful := ?_ }
      · intro stage writes
        exact owned_same handle initial system _ stage (passed_append_reading system.reloads stage kind)
          (fun _ => Iff.rfl) Iff.rfl (sound.owned stage writes)
      · intro reload member readAt reads
        rcases List.mem_append.mp member with before | new
        · exact sound.counted reload before readAt reads
        · rw [List.mem_singleton.mp new] at reads
          cases reads
      · intro one other first second readAt foundOne foundOther readOne readOther
        exact sound.apart one other first second readAt (append_reading_before foundOne readOne)
          (append_reading_before foundOther readOther) readOne readOther
      · intro reload member
        rcases List.mem_append.mp member with before | new
        · exact sound.faithful reload before
        · rw [List.mem_singleton.mp new]
          trivial
  | advance index accepted now => exact advance_sound handle initial system index now accepted sound inOrder

theorem run_sound (handle : HandleConfig) (file : Option ServeConfigFile) (runtime : Runtime) (ops : List ReloadOp)
    (inOrder : Machine.AllSteps InOrder (ReloadSystem.step handle) (ReloadSystem.start file runtime) ops) :
    Sound handle runtime (Machine.run (ReloadSystem.step handle) (ReloadSystem.start file runtime) ops) :=
  Machine.invariant_of_guarded (step_sound handle runtime) _ ops (start_sound handle file runtime) inOrder

end Lvqr.Config
