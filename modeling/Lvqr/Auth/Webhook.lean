import Lvqr.Auth.Provider
import Lvqr.Lib.Machine
import Lvqr.Lib.Table

set_option autoImplicit false

-- The webhook auth provider: checks that read a cache, and the task that fills it.
namespace Lvqr.Auth

-- A capacity of zero cannot be configured.
structure WebhookAuthConfig where
  allowCacheTtl : Nat
  denyCacheTtl : Nat
  cacheCapacity : Nat
  capacityPositive : 0 < cacheCapacity

inductive CacheKey where
  | publish (app key : String) (broadcast : Option String)
  | subscribe (token : Option String) (broadcast : String)
  | admin (token : String)
deriving DecidableEq, Repr

def CacheKey.fromCtx : AuthContext → CacheKey
  | .publish app key broadcast => .publish app key broadcast
  | .subscribe token broadcast => .subscribe token broadcast
  | .admin token => .admin token

theorem from_ctx_injective : Function.Injective CacheKey.fromCtx := by
  intro ctx other same
  cases ctx <;> cases other <;> cases same <;> rfl

structure CacheEntry where
  decision : AuthDecision
  expiresAt : Nat
deriving DecidableEq, Repr

structure WebhookResponse where
  allow : Bool
  reason : Option String
deriving DecidableEq, Repr

-- A POST that fails to be sent, is answered with an error status or with something
-- that does not parse is an error text.
abbrev Posted := Except String WebhookResponse

def WebhookResponse.decision (response : WebhookResponse) : AuthDecision :=
  if response.allow then .allow else .deny (response.reason.getD "denied by webhook")

def fetched : Posted → AuthDecision
  | .ok response => response.decision
  | .error error => .deny ("webhook call failed: " ++ error)

-- A check that found its decision keeps when it had read the clock, when it returned
-- and the entry it returned from.
inductive Check where
  | looking (ctx : AuthContext) (now : Nat)
  | enqueuing (ctx : AuthContext)
  | notifying (ctx : AuthContext)
  | hit (ctx : AuthContext) (now returnedAt : Nat) (entry : CacheEntry)
  | missed (ctx : AuthContext)
deriving DecidableEq, Repr

inductive Fetcher where
  | ready
  | waiting
  | notified
  | fetching (batch : Table CacheKey AuthContext)
  | storing (key : CacheKey) (entry : CacheEntry) (batch : Table CacheKey AuthContext)

-- `answers` is ghost state: what each POST came to.
structure WebhookAuthProvider where
  cache : Table CacheKey CacheEntry
  pending : Table CacheKey AuthContext
  permit : Bool
  fetcher : Fetcher
  checks : List Check
  clock : Nat
  answers : List (AuthContext × Posted)

inductive WebhookOp where
  | tick (elapsed : Nat)
  | check (ctx : AuthContext)
  | advance (check : Nat)
  | poll
  | drain
  | answer (key : CacheKey) (posted : Posted)
  | store (oldest : CacheKey)
  | finish

def isOldest (cache : Table CacheKey CacheEntry) (key : CacheKey) : Bool :=
  match cache.lookup key with
  | none => false
  | some entry => cache.entries.all fun other => entry.expiresAt ≤ other.2.expiresAt

-- Among entries that expire first the map's order decides; the model is told which.
def oldestKey (cache : Table CacheKey CacheEntry) (oldest : CacheKey) : Option CacheKey :=
  if isOldest cache oldest then some oldest else cache.keys.find? (isOldest cache)

def evictIfFull (cache : Table CacheKey CacheEntry) (capacity : Nat) (oldest : CacheKey) : Table CacheKey CacheEntry :=
  if cache.keys.length < capacity then cache
  else
    match oldestKey cache oldest with
    | some key => cache.erase key
    | none => cache

namespace WebhookAuthProvider

def new : WebhookAuthProvider := ⟨∅, ∅, false, .ready, [], 0, []⟩

-- A waiting task is woken; otherwise one permit is kept.
def notifyOne (provider : WebhookAuthProvider) : WebhookAuthProvider :=
  match provider.fetcher with
  | .waiting => { provider with fetcher := .notified }
  | _ => { provider with permit := true }

def setCheck (provider : WebhookAuthProvider) (index : Nat) (check : Check) : WebhookAuthProvider :=
  { provider with checks := provider.checks.set index check }

def lookCache (provider : WebhookAuthProvider) (ctx : AuthContext) (now : Nat) : Check :=
  match provider.cache.lookup (.fromCtx ctx) with
  | some entry => if now < entry.expiresAt then .hit ctx now provider.clock entry else .enqueuing ctx
  | none => .enqueuing ctx

def enqueue (provider : WebhookAuthProvider) (ctx : AuthContext) : WebhookAuthProvider :=
  match provider.pending.lookup (.fromCtx ctx) with
  | some _ => provider
  | none => { provider with pending := provider.pending.insert (.fromCtx ctx) ctx }

def advance (provider : WebhookAuthProvider) (index : Nat) : WebhookAuthProvider :=
  match provider.checks[index]? with
  | some (.looking ctx now) => provider.setCheck index (provider.lookCache ctx now)
  | some (.enqueuing ctx) => (provider.enqueue ctx).setCheck index (.notifying ctx)
  | some (.notifying ctx) => provider.notifyOne.setCheck index (.missed ctx)
  | _ => provider

def ttl (config : WebhookAuthConfig) : AuthDecision → Nat
  | .allow => config.allowCacheTtl
  | .deny _ => config.denyCacheTtl

def step (config : WebhookAuthConfig) (provider : WebhookAuthProvider) : WebhookOp → WebhookAuthProvider
  | .tick elapsed => { provider with clock := provider.clock + elapsed }
  | .check ctx => { provider with checks := provider.checks ++ [.looking ctx provider.clock] }
  | .advance index => provider.advance index
  | .poll =>
      match provider.fetcher with
      | .ready =>
          if provider.permit then { provider with permit := false, fetcher := .notified }
          else { provider with fetcher := .waiting }
      | _ => provider
  | .drain =>
      match provider.fetcher with
      | .notified => { provider with pending := ∅, fetcher := .fetching provider.pending }
      | _ => provider
  | .answer key posted =>
      match provider.fetcher with
      | .fetching batch =>
          match batch.lookup key with
          | some ctx =>
              let decision := fetched posted
              { provider with
                answers := (ctx, posted) :: provider.answers
                fetcher := .storing key ⟨decision, provider.clock + ttl config decision⟩ (batch.erase key) }
          | none => provider
      | _ => provider
  | .store oldest =>
      match provider.fetcher with
      | .storing key entry batch =>
          { provider with
            cache := (evictIfFull provider.cache config.cacheCapacity oldest).insert key entry
            fetcher := .fetching batch }
      | _ => provider
  | .finish =>
      match provider.fetcher with
      | .fetching batch => if batch.keys = [] then { provider with fetcher := .ready } else provider
      | _ => provider

-- The decision is what a POST for the context came to.
def AnsweredFor (provider : WebhookAuthProvider) (ctx : AuthContext) (decision : AuthDecision) : Prop :=
  ∃ posted, (ctx, posted) ∈ provider.answers ∧ decision = fetched posted

def Answered (provider : WebhookAuthProvider) (key : CacheKey) (decision : AuthDecision) : Prop :=
  ∃ ctx, CacheKey.fromCtx ctx = key ∧ provider.AnsweredFor ctx decision

def CachedAnswers (provider : WebhookAuthProvider) : Prop :=
  ∀ key entry, provider.cache.lookup key = some entry → provider.Answered key entry.decision

def WithinCapacity (config : WebhookAuthConfig) (provider : WebhookAuthProvider) : Prop :=
  provider.cache.keys.length ≤ config.cacheCapacity

-- What a check returned from the cache was an answer for its context and had not
-- expired when the check read the clock.
def HitsUnexpired (provider : WebhookAuthProvider) : Prop :=
  ∀ ctx now returnedAt entry, .hit ctx now returnedAt entry ∈ provider.checks →
    now < entry.expiresAt ∧ provider.AnsweredFor ctx entry.decision

-- Where a key is pending and the fetcher sleeps without a permit, the check that
-- enqueued it is about to notify.
def Attended (provider : WebhookAuthProvider) : Prop :=
  ∀ key, key ∈ provider.pending → provider.fetcher = .waiting → provider.permit = false →
    ∃ ctx, .notifying ctx ∈ provider.checks

def KeysContexts (contexts : Table CacheKey AuthContext) : Prop :=
  ∀ key ctx, contexts.lookup key = some ctx → CacheKey.fromCtx ctx = key

-- What the fetcher has in hand.
def FetcherSound (provider : WebhookAuthProvider) : Prop :=
  match provider.fetcher with
  | .fetching batch => KeysContexts batch
  | .storing key entry batch => KeysContexts batch ∧ provider.Answered key entry.decision
  | _ => True

structure Truthful (provider : WebhookAuthProvider) : Prop where
  pending : KeysContexts provider.pending
  fetcher : provider.FetcherSound
  cached : provider.CachedAnswers
  hits : provider.HitsUnexpired

theorem keys_contexts_erase (contexts : Table CacheKey AuthContext) (key : CacheKey) (sound : KeysContexts contexts) :
    KeysContexts (contexts.erase key) := by
  intro other ctx found
  exact sound other ctx (Table.erase_cases found).2

theorem keys_contexts_insert (contexts : Table CacheKey AuthContext) (ctx : AuthContext) (sound : KeysContexts contexts) :
    KeysContexts (contexts.insert (.fromCtx ctx) ctx) := by
  intro other one found
  rcases Table.insert_cases found with ⟨rfl, rfl⟩ | ⟨_, before⟩
  · rfl
  · exact sound other one before

-- A step that touches neither the cache nor the answers and adds no hit of its own.
theorem truthful_of_frame (provider after : WebhookAuthProvider) (truthful : provider.Truthful)
    (cache : after.cache = provider.cache) (answers : after.answers = provider.answers)
    (pending : KeysContexts after.pending) (fetcher : after.FetcherSound)
    (hits : ∀ ctx now returnedAt entry, .hit ctx now returnedAt entry ∈ after.checks →
      .hit ctx now returnedAt entry ∈ provider.checks) : after.Truthful := by
  have answered : ∀ ctx decision, provider.AnsweredFor ctx decision → after.AnsweredFor ctx decision := by
    rintro ctx decision ⟨posted, isAnswer, isDecision⟩
    exact ⟨posted, answers ▸ isAnswer, isDecision⟩
  refine ⟨pending, fetcher, fun key entry found => ?_, fun ctx now returnedAt entry isHit => ?_⟩
  · obtain ⟨ctx, isKey, isAnswer⟩ := truthful.cached key entry (cache ▸ found)
    exact ⟨ctx, isKey, answered ctx _ isAnswer⟩
  · obtain ⟨unexpired, isAnswer⟩ := truthful.hits ctx now returnedAt entry (hits ctx now returnedAt entry isHit)
    exact ⟨unexpired, answered _ _ isAnswer⟩

theorem fetcher_frame (provider after : WebhookAuthProvider) (sound : provider.FetcherSound)
    (fetcher : after.fetcher = provider.fetcher) (answers : after.answers = provider.answers) : after.FetcherSound := by
  unfold FetcherSound at *
  rw [fetcher]
  cases here : provider.fetcher with
  | storing key entry batch =>
      rw [here] at sound
      obtain ⟨keys, ctx, isKey, posted, isAnswer, isDecision⟩ := sound
      exact ⟨keys, ctx, isKey, posted, answers ▸ isAnswer, isDecision⟩
  | _ => rwa [here] at sound

theorem notify_frame (provider : WebhookAuthProvider) :
    provider.notifyOne.cache = provider.cache ∧ provider.notifyOne.answers = provider.answers ∧
      provider.notifyOne.pending = provider.pending ∧ provider.notifyOne.checks = provider.checks := by
  rw [notifyOne]
  split <;> exact ⟨rfl, rfl, rfl, rfl⟩

theorem notify_fetcher_sound (provider : WebhookAuthProvider) (sound : provider.FetcherSound) :
    provider.notifyOne.FetcherSound := by
  rw [notifyOne]
  split
  · trivial
  · exact fetcher_frame provider _ sound rfl rfl

theorem hit_set (checks : List Check) (index : Nat) (check : Check) (ctx : AuthContext) (now returnedAt : Nat)
    (entry : CacheEntry) (silent : ∀ ctx now returnedAt entry, check ≠ .hit ctx now returnedAt entry)
    (isHit : .hit ctx now returnedAt entry ∈ checks.set index check) : .hit ctx now returnedAt entry ∈ checks :=
  (List.mem_or_eq_of_mem_set isHit).resolve_right fun same => silent _ _ _ _ same.symm

theorem look_truthful (provider : WebhookAuthProvider) (index : Nat) (ctx : AuthContext) (now : Nat)
    (truthful : provider.Truthful) : (provider.setCheck index (provider.lookCache ctx now)).Truthful := by
  refine ⟨truthful.pending, fetcher_frame provider _ truthful.fetcher rfl rfl, truthful.cached, ?_⟩
  intro other otherNow returnedAt entry isHit
  rcases List.mem_or_eq_of_mem_set isHit with before | isNew
  · exact truthful.hits other otherNow returnedAt entry before
  · rw [lookCache] at isNew
    split at isNew
    · rename_i found isFound
      split at isNew
      · rename_i unexpired
        cases isNew
        obtain ⟨one, isKey, isAnswer⟩ := truthful.cached _ _ isFound
        exact ⟨unexpired, from_ctx_injective isKey ▸ isAnswer⟩
      · cases isNew
    · cases isNew

theorem advance_truthful (provider : WebhookAuthProvider) (index : Nat) (truthful : provider.Truthful) :
    (provider.advance index).Truthful := by
  rw [advance.eq_def]
  split
  · exact look_truthful provider index _ _ truthful
  · rename_i ctx _
    rw [enqueue]
    split
    · exact truthful_of_frame provider _ truthful rfl rfl truthful.pending
        (fetcher_frame provider _ truthful.fetcher rfl rfl)
        fun _ _ _ _ isHit => hit_set _ index _ _ _ _ _ (by simp) isHit
    · exact truthful_of_frame provider _ truthful rfl rfl (keys_contexts_insert _ ctx truthful.pending)
        (fetcher_frame provider _ truthful.fetcher rfl rfl)
        fun _ _ _ _ isHit => hit_set _ index _ _ _ _ _ (by simp) isHit
  · obtain ⟨cache, answers, pending, checks⟩ := notify_frame provider
    refine truthful_of_frame provider _ truthful cache answers ?_ ?_ ?_
    · rw [setCheck, pending]
      exact truthful.pending
    · exact fetcher_frame provider.notifyOne _ (notify_fetcher_sound provider truthful.fetcher) rfl rfl
    · intro _ _ _ _ isHit
      rw [setCheck, checks] at isHit
      exact hit_set _ index _ _ _ _ _ (by simp) isHit
  · exact truthful

theorem lookup_evict (cache : Table CacheKey CacheEntry) (capacity : Nat) (oldest key : CacheKey) (entry : CacheEntry)
    (found : (evictIfFull cache capacity oldest).lookup key = some entry) : cache.lookup key = some entry := by
  rw [evictIfFull] at found
  split at found
  · exact found
  · split at found
    · exact (Table.erase_cases found).2
    · exact found

theorem store_truthful (config : WebhookAuthConfig) (provider : WebhookAuthProvider) (oldest : CacheKey)
    (truthful : provider.Truthful) : (provider.step config (.store oldest)).Truthful := by
  have sound := truthful.fetcher
  unfold FetcherSound at sound
  simp only [step]
  split
  · rename_i key entry batch here
    rw [here] at sound
    refine ⟨truthful.pending, sound.1, fun other one found => ?_, truthful.hits⟩
    have inserted : ((evictIfFull provider.cache config.cacheCapacity oldest).insert key entry).lookup other = some one :=
      found
    rcases Table.insert_cases inserted with ⟨rfl, rfl⟩ | ⟨_, before⟩
    · exact sound.2
    · exact truthful.cached other one (lookup_evict _ _ _ _ _ before)
  · exact truthful

theorem answer_truthful (config : WebhookAuthConfig) (provider : WebhookAuthProvider) (key : CacheKey) (posted : Posted)
    (truthful : provider.Truthful) : (provider.step config (.answer key posted)).Truthful := by
  have sound := truthful.fetcher
  unfold FetcherSound at sound
  simp only [step]
  split
  · rename_i batch here
    rw [here] at sound
    split
    · rename_i ctx found
      have grows : ∀ other decision, provider.AnsweredFor other decision →
          ∃ result, (other, result) ∈ (ctx, posted) :: provider.answers ∧ decision = fetched result := by
        rintro other decision ⟨result, isAnswer, isDecision⟩
        exact ⟨result, List.mem_cons_of_mem _ isAnswer, isDecision⟩
      refine ⟨truthful.pending, ⟨keys_contexts_erase batch key sound, ?_⟩, ?_, ?_⟩
      · exact ⟨ctx, sound key ctx found, posted, List.mem_cons_self, rfl⟩
      · intro other entry isEntry
        obtain ⟨one, isKey, isAnswer⟩ := truthful.cached other entry isEntry
        exact ⟨one, isKey, grows one _ isAnswer⟩
      · intro other now returnedAt entry isHit
        obtain ⟨unexpired, isAnswer⟩ := truthful.hits other now returnedAt entry isHit
        exact ⟨unexpired, grows _ _ isAnswer⟩
    · exact truthful
  · exact truthful

theorem step_truthful (config : WebhookAuthConfig) (provider : WebhookAuthProvider) (op : WebhookOp)
    (truthful : provider.Truthful) : (provider.step config op).Truthful := by
  cases op with
  | tick elapsed =>
      exact truthful_of_frame provider _ truthful rfl rfl truthful.pending
        (fetcher_frame provider _ truthful.fetcher rfl rfl) fun _ _ _ _ isHit => isHit
  | check ctx =>
      refine truthful_of_frame provider _ truthful rfl rfl truthful.pending
        (fetcher_frame provider _ truthful.fetcher rfl rfl) fun _ _ _ _ isHit => ?_
      simpa [step] using isHit
  | advance index => exact advance_truthful provider index truthful
  | poll =>
      simp only [step]
      split
      · split <;> exact truthful_of_frame provider _ truthful rfl rfl truthful.pending trivial fun _ _ _ _ isHit => isHit
      · exact truthful
  | drain =>
      simp only [step]
      split
      · refine truthful_of_frame provider _ truthful rfl rfl ?_ truthful.pending fun _ _ _ _ isHit => isHit
        intro key ctx found
        cases found
      · exact truthful
  | answer key posted => exact answer_truthful config provider key posted truthful
  | store oldest => exact store_truthful config provider oldest truthful
  | finish =>
      simp only [step]
      split
      · split
        · exact truthful_of_frame provider _ truthful rfl rfl truthful.pending trivial fun _ _ _ _ isHit => isHit
        · exact truthful
      · exact truthful

theorem oldest_found (cache : Table CacheKey CacheEntry) (oldest : CacheKey) (filled : cache.keys ≠ []) :
    ∃ key, oldestKey cache oldest = some key ∧ key ∈ cache := by
  have present : ∀ key, isOldest cache key = true → key ∈ cache := by
    intro key isIt
    rw [isOldest] at isIt
    split at isIt
    · cases isIt
    · rename_i entry found
      exact Table.mem_of_lookup found
  rw [oldestKey]
  by_cases given : isOldest cache oldest = true
  · exact ⟨oldest, if_pos given, present oldest given⟩
  · rw [if_neg given]
    have entries : cache.entries ≠ [] := fun none => filled (by rw [AList.keys, List.keys, none]; rfl)
    let least := cache.entries.minOn (fun entry => entry.2.expiresAt) entries
    have isLeast : least ∈ cache.entries := List.minOn_mem
    have found : cache.lookup least.1 = some least.2 := AList.mem_lookup_iff.mpr isLeast
    have isIt : isOldest cache least.1 = true := by
      simp only [isOldest, found, List.all_eq_true, decide_eq_true_eq]
      exact fun other member => List.apply_minOn_le_of_mem (f := fun entry => entry.2.expiresAt) member
    cases search : cache.keys.find? (isOldest cache) with
    | none => exact absurd isIt (by simpa using List.find?_eq_none.mp search least.1 (present least.1 isIt))
    | some key => exact ⟨key, rfl, present key (List.find?_some search)⟩

theorem evict_makes_room (cache : Table CacheKey CacheEntry) (capacity : Nat) (oldest : CacheKey)
    (positive : 0 < capacity) (within : cache.keys.length ≤ capacity) :
    (evictIfFull cache capacity oldest).keys.length < capacity := by
  rw [evictIfFull]
  split
  · assumption
  · rename_i full
    have filled : cache.keys ≠ [] := by
      intro empty
      simp [empty, positive] at full
    obtain ⟨key, isOldest, member⟩ := oldest_found cache oldest filled
    rw [isOldest]
    simp only [AList.keys_erase, List.length_erase_of_mem (AList.mem_keys.mp member)]
    omega

theorem insert_length (cache : Table CacheKey CacheEntry) (key : CacheKey) (entry : CacheEntry) :
    (cache.insert key entry).keys.length ≤ cache.keys.length + 1 := by
  rw [AList.keys_insert, List.length_cons]
  exact Nat.succ_le_succ List.length_erase_le

theorem cache_frame (config : WebhookAuthConfig) (provider : WebhookAuthProvider) (op : WebhookOp)
    (other : ∀ oldest, op ≠ .store oldest) : (provider.step config op).cache = provider.cache := by
  cases op with
  | store oldest => exact absurd rfl (other oldest)
  | advance index =>
      simp only [step, advance]
      split
      · rfl
      · rw [setCheck, enqueue]
        split <;> rfl
      · exact (notify_frame provider).1
      · rfl
  | tick | check => rfl
  | poll | drain | answer | finish =>
      simp only [step]
      repeat' split
      all_goals rfl

theorem step_within (config : WebhookAuthConfig) (provider : WebhookAuthProvider) (op : WebhookOp)
    (within : provider.WithinCapacity config) : (provider.step config op).WithinCapacity config := by
  by_cases stores : ∃ oldest, op = .store oldest
  · obtain ⟨oldest, rfl⟩ := stores
    simp only [step]
    split
    · have room := evict_makes_room provider.cache config.cacheCapacity oldest config.capacityPositive within
      exact Nat.le_trans (insert_length _ _ _) room
    · exact within
  · rw [WithinCapacity, cache_frame config provider op fun oldest same => stores ⟨oldest, same⟩]
    exact within

-- Whatever is pending is followed by a wakeup.
def Followed (provider : WebhookAuthProvider) : Prop :=
  ∀ key, key ∈ provider.pending →
    provider.permit = true ∨ provider.fetcher = .notified ∨ ∃ ctx, .notifying ctx ∈ provider.checks

theorem followed_of_frame (provider after : WebhookAuthProvider) (followed : provider.Followed)
    (pending : ∀ key, key ∈ after.pending → key ∈ provider.pending)
    (permit : provider.permit = true → after.permit = true ∨ after.fetcher = .notified)
    (fetcher : provider.fetcher = .notified → after.fetcher = .notified)
    (checks : ∀ ctx, .notifying ctx ∈ provider.checks → .notifying ctx ∈ after.checks) : after.Followed := by
  intro key isPending
  rcases followed key (pending key isPending) with stored | woken | ⟨ctx, notifies⟩
  · exact (permit stored).imp_right .inl
  · exact .inr (.inl (fetcher woken))
  · exact .inr (.inr ⟨ctx, checks ctx notifies⟩)

theorem notified_wakes (provider : WebhookAuthProvider) :
    provider.notifyOne.permit = true ∨ provider.notifyOne.fetcher = .notified := by
  rw [notifyOne]
  split
  · exact .inr rfl
  · exact .inl rfl

theorem advance_followed (provider : WebhookAuthProvider) (index : Nat) (followed : provider.Followed) :
    (provider.advance index).Followed := by
  have kept : ∀ old new ctx, provider.checks[index]? = some old → (∀ other, old ≠ .notifying other) →
      .notifying ctx ∈ provider.checks → .notifying ctx ∈ provider.checks.set index new := by
    intro old new ctx here silent notifies
    obtain ⟨place, found⟩ := List.mem_iff_getElem?.mp notifies
    refine List.mem_iff_getElem?.mpr ⟨place, ?_⟩
    rw [List.getElem?_set_ne, found]
    rintro rfl
    exact silent ctx (Option.some.inj (here.symm.trans found))
  rw [advance.eq_def]
  split
  · rename_i ctx now here
    exact followed_of_frame provider _ followed (fun _ => id) .inl id fun other => kept _ _ other here (by simp)
  · rename_i ctx here
    obtain ⟨bound, _⟩ := List.getElem?_eq_some_iff.mp here
    intro key _
    have checks : (provider.enqueue ctx).checks = provider.checks := by
      rw [enqueue]
      split <;> rfl
    refine .inr (.inr ⟨ctx, ?_⟩)
    rw [setCheck, checks]
    exact List.mem_set bound _
  · intro key _
    exact (notified_wakes provider).imp_right .inl
  · exact followed

-- A fetcher that was not woken goes on with its work.
theorem followed_of_busy (provider after : WebhookAuthProvider) (followed : provider.Followed)
    (busy : provider.fetcher ≠ .notified) (pending : after.pending = provider.pending)
    (permit : after.permit = provider.permit) (checks : after.checks = provider.checks) : after.Followed := by
  refine followed_of_frame provider after followed ?_ ?_ (fun woken => absurd woken busy) ?_
  · rw [pending]
    exact fun _ => id
  · rw [permit]
    exact .inl
  · rw [checks]
    exact fun _ => id

theorem step_followed (config : WebhookAuthConfig) (provider : WebhookAuthProvider) (op : WebhookOp)
    (followed : provider.Followed) : (provider.step config op).Followed := by
  cases op with
  | tick elapsed => exact followed
  | check ctx =>
      exact followed_of_frame provider _ followed (fun _ => id) .inl id fun _ => List.mem_append_left _
  | advance index => exact advance_followed provider index followed
  | poll =>
      simp only [step]
      split
      · rename_i ready
        split
        · exact fun _ _ => .inr (.inl rfl)
        · exact followed_of_busy provider _ followed (by simp [ready]) rfl rfl rfl
      · exact followed
  | drain =>
      simp only [step]
      split
      · exact fun key isPending => absurd isPending (AList.notMem_empty key)
      · exact followed
  | answer key posted =>
      simp only [step]
      split
      · rename_i batch fetching
        split
        · exact followed_of_busy provider _ followed (by simp [fetching]) rfl rfl rfl
        · exact followed
      · exact followed
  | store oldest =>
      simp only [step]
      split
      · rename_i storing
        exact followed_of_busy provider _ followed (by simp [storing]) rfl rfl rfl
      · exact followed
  | finish =>
      simp only [step]
      split
      · rename_i fetching
        split
        · exact followed_of_busy provider _ followed (by simp [fetching]) rfl rfl rfl
        · exact followed
      · exact followed

theorem followed_attended (provider : WebhookAuthProvider) (followed : provider.Followed) : provider.Attended := by
  intro key isPending sleeping noPermit
  rcases followed key isPending with stored | woken | notifies
  · rw [noPermit] at stored
    cases stored
  · rw [sleeping] at woken
    cases woken
  · exact notifies

theorem webhook_cache_sound (config : WebhookAuthConfig) (ops : List WebhookOp) :
    let provider := Machine.run (step config) new ops
    provider.CachedAnswers ∧ provider.WithinCapacity config ∧ provider.HitsUnexpired ∧ provider.Attended := by
  intro provider
  have start : new.Truthful := by
    refine ⟨fun key ctx found => ?_, trivial, fun key entry found => ?_, fun ctx now returnedAt entry isHit => ?_⟩
    · cases found
    · cases found
    · cases isHit
  have truthful := Machine.invariant_of_run (step_truthful config) new ops start
  have followed := Machine.invariant_of_run (step_followed config) new ops
    fun key isPending => absurd isPending (AList.notMem_empty key)
  exact ⟨truthful.cached, Machine.invariant_of_run (step_within config) new ops (Nat.zero_le _), truthful.hits,
    followed_attended provider followed⟩

-- The same without a tolerance for failed POSTs, for time that passes between a
-- check's clock and its return, and for a check between its two last steps.
def OnlyWebhookAnswers (provider : WebhookAuthProvider) : Prop :=
  ∀ key entry, provider.cache.lookup key = some entry →
    ∃ ctx response, CacheKey.fromCtx ctx = key ∧ (ctx, .ok response) ∈ provider.answers ∧ entry.decision = response.decision

def AllowsUnexpired (provider : WebhookAuthProvider) : Prop :=
  ∀ ctx now returnedAt entry, .hit ctx now returnedAt entry ∈ provider.checks → entry.decision = .allow →
    returnedAt < entry.expiresAt

def NeverAsleep (provider : WebhookAuthProvider) : Prop :=
  ∀ key, key ∈ provider.pending → provider.fetcher = .waiting → provider.permit = true

def smallConfig : WebhookAuthConfig := ⟨60, 10, 4, by decide⟩

def adminCheck : AuthContext := .admin "root"

def missAndFetch (posted : Posted) : List WebhookOp :=
  [.check adminCheck, .advance 0, .advance 0, .advance 0, .poll, .drain, .answer (.admin "root") posted, .store (.admin "root")]

theorem webhook_tolerances :
    ¬(∀ config ops, (Machine.run (step config) new ops).OnlyWebhookAnswers) ∧
      ¬(∀ config ops, (Machine.run (step config) new ops).AllowsUnexpired) ∧
      ¬(∀ config ops, (Machine.run (step config) new ops).NeverAsleep) := by
  refine ⟨fun always => ?_, fun always => ?_, fun always => ?_⟩
  · have strict := always smallConfig (missAndFetch (.error "send: timed out"))
    obtain ⟨ctx, response, _, isAnswer, _⟩ :=
      strict (.admin "root") ⟨.deny "webhook call failed: send: timed out", 10⟩ rfl
    have answers : (Machine.run (step smallConfig) new (missAndFetch (.error "send: timed out"))).answers =
        [(adminCheck, .error "send: timed out")] := rfl
    rw [answers, List.mem_singleton] at isAnswer
    cases isAnswer
  · have timely := always smallConfig
      (missAndFetch (.ok ⟨true, none⟩) ++ [.check adminCheck, .tick 60, .advance 1])
    have hits : (Machine.run (step smallConfig) new
        (missAndFetch (.ok ⟨true, none⟩) ++ [.check adminCheck, .tick 60, .advance 1])).checks =
        [.missed adminCheck, .hit adminCheck 0 60 ⟨.allow, 60⟩] := rfl
    exact absurd (timely adminCheck 0 60 ⟨.allow, 60⟩ (by rw [hits]; simp) rfl) (Nat.lt_irrefl 60)
  · have awake := always smallConfig [.poll, .check adminCheck, .advance 0, .advance 0]
    have stored := awake (.admin "root") (AList.lookup_isSome.mp rfl) rfl
    cases stored

end WebhookAuthProvider

end Lvqr.Auth
