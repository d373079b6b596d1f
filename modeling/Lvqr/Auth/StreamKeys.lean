import Mathlib.Algebra.Group.Nat.Defs
import Mathlib.Data.List.Nodup
import Mathlib.Data.List.Perm.Basic
import Lvqr.Lib.Machine
import Lvqr.Lib.Table

set_option autoImplicit false

-- The stream keys of the admin API, under concurrent mints, rotations and revocations.
namespace Lvqr.Auth

structure StreamKey where
  id : String
  token : String
  label : Option String
  broadcast : Option String
  createdAt : Nat
  expiresAt : Option Nat
deriving DecidableEq, Repr

structure StreamKeySpec where
  label : Option String
  broadcast : Option String
  ttlSeconds : Option Nat
deriving DecidableEq, Repr

def ttlToExpiry (ttlSeconds : Option Nat) (now : Nat) : Option Nat :=
  match ttlSeconds with
  | some 0 | none => none
  | some ttl => some (min (now + ttl) (2 ^ 64 - 1))

def isExpired (key : StreamKey) (now : Nat) : Bool :=
  match key.expiresAt with
  | some expiry => expiry ≤ now
  | none => false

-- What the operating system's random numbers make, draw by draw.
structure Draws where
  generateToken : Nat → String
  generateId : Nat → String

structure Draws.Distinct (draws : Draws) : Prop where
  tokens : Function.Injective draws.generateToken
  ids : Function.Injective draws.generateId

-- What a call in progress has still to do, one map operation at a time.
inductive Call where
  | mintById (key : StreamKey)
  | revokeToken (id token : String)
  | rotateRemove (id priorToken newToken : String)
  | rotateInsert (id newToken : String)
deriving DecidableEq, Repr

-- `issued`, `retired` and `early` are ghost state: for which id a token was made,
-- which tokens a rotation or revocation took out of their record, and which of them
-- it did not find in the index when it removed them there.
structure InMemoryStreamKeyStore where
  byId : Table String StreamKey
  byToken : Table String String
  calls : List Call
  drawn : Nat
  panicked : Bool
  issued : Table String String
  retired : List String
  early : List (String × String)

inductive StoreOp where
  | mint (spec : StreamKeySpec) (now : Nat)
  | revoke (id : String)
  | rotate (id : String) (overrideSpec : Option StreamKeySpec) (now : Nat)
  | advance (call : Nat)
deriving DecidableEq, Repr

namespace InMemoryStreamKeyStore

def new : InMemoryStreamKeyStore := ⟨∅, ∅, [], 0, false, ∅, [], []⟩

def getByToken (store : InMemoryStreamKeyStore) (token : String) (now : Nat) : Option StreamKey :=
  match store.byToken.lookup token with
  | none => none
  | some id =>
      match store.byId.lookup id with
      | none => none
      | some key => if isExpired key now then none else some key

-- A token that is in the index already makes the call panic.
def mint (draws : Draws) (store : InMemoryStreamKeyStore) (spec : StreamKeySpec) (now : Nat) : InMemoryStreamKeyStore :=
  let key : StreamKey := {
    id := draws.generateId store.drawn
    token := draws.generateToken store.drawn
    label := spec.label
    broadcast := spec.broadcast
    createdAt := now
    expiresAt := ttlToExpiry spec.ttlSeconds now
  }
  let inserted := { store with
    byToken := store.byToken.insert key.token key.id
    drawn := store.drawn + 1
    issued := store.issued.insert key.token key.id }
  match store.byToken.lookup key.token with
  | some _ => { inserted with panicked := true }
  | none => { inserted with calls := .mintById key :: store.calls }

def revoke (store : InMemoryStreamKeyStore) (id : String) : InMemoryStreamKeyStore :=
  match store.byId.lookup id with
  | none => store
  | some key =>
      { store with
        byId := store.byId.erase id
        calls := .revokeToken id key.token :: store.calls
        retired := key.token :: store.retired }

def rotated (key : StreamKey) (overrideSpec : Option StreamKeySpec) (newToken : String) (now : Nat) : StreamKey :=
  match overrideSpec with
  | some spec =>
      { key with
        label := spec.label
        broadcast := spec.broadcast
        expiresAt := ttlToExpiry spec.ttlSeconds now
        token := newToken
        createdAt := now }
  | none => { key with token := newToken, createdAt := now }

def rotate (draws : Draws) (store : InMemoryStreamKeyStore) (id : String) (overrideSpec : Option StreamKeySpec) (now : Nat) :
    InMemoryStreamKeyStore :=
  match store.byId.lookup id with
  | none => store
  | some key =>
      let newToken := draws.generateToken store.drawn
      { store with
        byId := store.byId.insert id (rotated key overrideSpec newToken now)
        calls := .rotateRemove id key.token newToken :: store.calls
        drawn := store.drawn + 1
        issued := store.issued.insert newToken id
        retired := key.token :: store.retired }

def removeToken (store : InMemoryStreamKeyStore) (id token : String) : InMemoryStreamKeyStore :=
  { store with
    byToken := store.byToken.erase token
    early := if (store.byToken.lookup token).isNone then (token, id) :: store.early else store.early }

def insertToken (store : InMemoryStreamKeyStore) (id token : String) : InMemoryStreamKeyStore :=
  { store with
    byToken := store.byToken.insert token id
    panicked := store.panicked || (store.byToken.lookup token).isSome }

-- The next step of a call that has been taken out of the calls in progress.
def resume (store : InMemoryStreamKeyStore) : Call → InMemoryStreamKeyStore
  | .mintById key => { store with byId := store.byId.insert key.id key }
  | .revokeToken id token => store.removeToken id token
  | .rotateRemove id priorToken newToken =>
      let removed := store.removeToken id priorToken
      { removed with calls := .rotateInsert id newToken :: removed.calls }
  | .rotateInsert id newToken => store.insertToken id newToken

def step (draws : Draws) (store : InMemoryStreamKeyStore) : StoreOp → InMemoryStreamKeyStore
  | .mint spec now => store.mint draws spec now
  | .revoke id => store.revoke id
  | .rotate id overrideSpec now => store.rotate draws id overrideSpec now
  | .advance index =>
      match store.calls[index]? with
      | none => store
      | some call => { store with calls := store.calls.eraseIdx index }.resume call

-- The token index serves exactly the current, unexpired records, and no token that
-- was rotated away or revoked.
structure Consistent (store : InMemoryStreamKeyStore) : Prop where
  serves : ∀ token now key, store.getByToken token now = some key ↔
    store.byId.lookup key.id = some key ∧ key.token = token ∧ isExpired key now = false
  forgets : ∀ token now, token ∈ store.retired → store.getByToken token now = none

-- What calls in progress owe: each token goes into the index once and out of it once.
inductive Due where
  | mints (token : String)
  | inserts (token : String)
  | removes (token : String)
deriving DecidableEq, Repr

def dues : Call → List Due
  | .mintById key => [.mints key.token]
  | .revokeToken _ token => [.removes token]
  | .rotateRemove _ priorToken newToken => [.removes priorToken, .inserts newToken]
  | .rotateInsert _ newToken => [.inserts newToken]

def due (store : InMemoryStreamKeyStore) : List Due := store.calls.flatMap dues

def Viable (key : StreamKey) : Prop := ∀ expiry, key.expiresAt = some expiry → 0 < expiry

def Sound (store : InMemoryStreamKeyStore) : Call → Prop
  | .mintById key =>
      store.issued.lookup key.token = some key.id ∧ key.token ∉ store.retired ∧ store.byId.lookup key.id = none ∧
        Viable key
  | .revokeToken id token => store.issued.lookup token = some id ∧ token ∈ store.retired
  | .rotateRemove id priorToken newToken =>
      store.issued.lookup priorToken = some id ∧ priorToken ∈ store.retired ∧ store.issued.lookup newToken = some id
  | .rotateInsert id newToken => store.issued.lookup newToken = some id

-- A retired token is still to be removed, unless its removal came too early.
def Accounted (store : InMemoryStreamKeyStore) (token id : String) : Prop :=
  token ∈ store.retired → .removes token ∈ store.due ∨ (token, id) ∈ store.early

structure Inv (draws : Draws) (store : InMemoryStreamKeyStore) : Prop where
  record : ∀ id key, store.byId.lookup id = some key →
    key.id = id ∧ store.issued.lookup key.token = some id ∧ key.token ∉ store.retired ∧ Viable key
  sole : ∀ id token other, store.issued.lookup token = some id → store.issued.lookup other = some id →
    token ∉ store.retired → other ∉ store.retired → token = other
  index : ∀ token id, store.byToken.lookup token = some id ↔
    store.issued.lookup token = some id ∧ .inserts token ∉ store.due ∧ store.Accounted token id
  owed : ∀ token id, store.issued.lookup token = some id → .inserts token ∈ store.due → store.Accounted token id
  distinct : store.due.Nodup
  sound : ∀ call ∈ store.calls, store.Sound call
  early : ∀ token id, (token, id) ∈ store.early →
    store.issued.lookup token = some id ∧ token ∈ store.retired ∧ .removes token ∉ store.due
  retired : ∀ token ∈ store.retired, ∃ id, store.issued.lookup token = some id
  fresh : ∀ token id, store.issued.lookup token = some id →
    (∃ draw < store.drawn, token = draws.generateToken draw) ∧ ∃ draw < store.drawn, id = draws.generateId draw
  quiet : store.panicked = false

variable {draws : Draws} {store : InMemoryStreamKeyStore}

theorem due_issued (inv : Inv draws store) (item : Due) (owing : item ∈ store.due) (token : String)
    (about : item = .mints token ∨ item = .inserts token ∨ item = .removes token) :
    ∃ id, store.issued.lookup token = some id := by
  obtain ⟨call, isCall, member⟩ := List.mem_flatMap.mp owing
  have sound := inv.sound call isCall
  cases call with
  | mintById key =>
      have same : item = .mints key.token := List.mem_singleton.mp member
      subst same
      rcases about with about | about | about <;> cases about
      exact ⟨_, sound.1⟩
  | revokeToken id other =>
      have same : item = .removes other := List.mem_singleton.mp member
      subst same
      rcases about with about | about | about <;> cases about
      exact ⟨_, sound.1⟩
  | rotateRemove id priorToken newToken =>
      simp only [dues, List.mem_cons, List.not_mem_nil, or_false] at member
      rcases member with same | same <;> subst same <;> rcases about with about | about | about <;> cases about
      · exact ⟨_, sound.1⟩
      · exact ⟨_, sound.2.2⟩
  | rotateInsert id newToken =>
      have same : item = .inserts newToken := List.mem_singleton.mp member
      subst same
      rcases about with about | about | about <;> cases about
      exact ⟨_, sound⟩

theorem removes_retired (inv : Inv draws store) (token : String) (owing : .removes token ∈ store.due) :
    token ∈ store.retired := by
  obtain ⟨call, isCall, member⟩ := List.mem_flatMap.mp owing
  have sound := inv.sound call isCall
  cases call with
  | mintById key => simp [dues] at member
  | rotateInsert id newToken => simp [dues] at member
  | revokeToken id other =>
      have same : token = other := by simpa [dues] using member
      exact same ▸ sound.2
  | rotateRemove id priorToken newToken =>
      have same : token = priorToken := by simpa [dues] using member
      exact same ▸ sound.2.1

theorem token_unissued (distinct : draws.Distinct) (inv : Inv draws store) :
    store.issued.lookup (draws.generateToken store.drawn) = none := by
  cases found : store.issued.lookup (draws.generateToken store.drawn) with
  | none => rfl
  | some id =>
      obtain ⟨⟨draw, before, same⟩, _⟩ := inv.fresh _ id found
      exact absurd (distinct.tokens same) (Nat.ne_of_gt before)

theorem id_unissued (distinct : draws.Distinct) (inv : Inv draws store) (token : String) :
    store.issued.lookup token ≠ some (draws.generateId store.drawn) := by
  intro found
  obtain ⟨_, draw, before, same⟩ := inv.fresh token _ found
  exact absurd (distinct.ids same) (Nat.ne_of_gt before)

theorem fresh_issue (inv : Inv draws store) (fresh : String) (owner : String)
    (unissued : store.issued.lookup fresh = none) :
    (∀ token id, store.issued.lookup token = some id → (store.issued.insert fresh owner).lookup token = some id) ∧
      fresh ∉ store.retired ∧ .inserts fresh ∉ store.due ∧ .removes fresh ∉ store.due ∧ .mints fresh ∉ store.due := by
  have nobody : ∀ id, store.issued.lookup fresh ≠ some id := fun id found => by simp [unissued] at found
  refine ⟨?_, ?_, ?_, ?_, ?_⟩
  · intro token id found
    rw [Table.lookup_insert_eq, if_neg]
    · exact found
    · exact fun same => nobody id (same ▸ found)
  · intro retired
    obtain ⟨id, found⟩ := inv.retired fresh retired
    exact nobody id found
  all_goals
    intro owing
    obtain ⟨id, found⟩ := due_issued inv _ owing fresh (by simp)
    exact nobody id found

theorem expiry_positive (ttlSeconds : Option Nat) (now expiry : Nat) (found : ttlToExpiry ttlSeconds now = some expiry) :
    0 < expiry := by
  rw [ttlToExpiry.eq_def] at found
  split at found
  · cases found
  · cases found
  · rename_i ttl positive
    have some_ttl : ttl ≠ 0 := fun zero => positive zero
    cases found
    omega

theorem lookup_insert_iff (table : Table String String) (key value other found : String)
    (absent : table.lookup key = none) : (table.insert key value).lookup other = some found ↔
      other = key ∧ found = value ∨ table.lookup other = some found := by
  rw [Table.lookup_insert_eq]
  by_cases same : other = key
  · rw [if_pos same, same, absent]
    simp [eq_comm]
  · simp [same]

theorem sole_insert (inv : Inv draws store) (fresh owner : String) (absent : store.issued.lookup fresh = none)
    (retired : List String) (grows : ∀ token ∈ store.retired, token ∈ retired)
    (unowned : ∀ token, store.issued.lookup token = some owner → token ∈ retired)
    (id token other : String) (here : (store.issued.insert fresh owner).lookup token = some id)
    (there : (store.issued.insert fresh owner).lookup other = some id) (live : token ∉ retired)
    (otherLive : other ∉ retired) : token = other := by
  rw [lookup_insert_iff _ _ _ _ _ absent] at here there
  rcases here with ⟨rfl, rfl⟩ | here <;> rcases there with ⟨rfl, same⟩ | there
  · rfl
  · exact absurd (unowned other there) otherLive
  · exact absurd (unowned token (same ▸ here)) live
  · exact inv.sole id token other here there (fun old => live (grows _ old)) (fun old => otherLive (grows _ old))

def minted (draws : Draws) (store : InMemoryStreamKeyStore) (spec : StreamKeySpec) (now : Nat) : StreamKey :=
  { id := draws.generateId store.drawn
    token := draws.generateToken store.drawn
    label := spec.label
    broadcast := spec.broadcast
    createdAt := now
    expiresAt := ttlToExpiry spec.ttlSeconds now }

theorem token_unindexed (distinct : draws.Distinct) (inv : Inv draws store) :
    store.byToken.lookup (draws.generateToken store.drawn) = none := by
  cases found : store.byToken.lookup (draws.generateToken store.drawn) with
  | none => rfl
  | some id =>
      have issued := ((inv.index _ id).mp found).1
      rw [token_unissued distinct inv] at issued
      cases issued

theorem accounted_congr (before after : InMemoryStreamKeyStore) (token id : String)
    (retired : token ∈ after.retired ↔ token ∈ before.retired)
    (removes : .removes token ∈ after.due ↔ .removes token ∈ before.due) (early : after.early = before.early) :
    after.Accounted token id ↔ before.Accounted token id := by
  rw [Accounted, Accounted, retired, removes, early]

theorem mint_distinct (distinct : draws.Distinct) (inv : Inv draws store) (spec : StreamKeySpec) (now : Nat) :
    store.mint draws spec now =
      { store with
        byToken := store.byToken.insert (draws.generateToken store.drawn) (draws.generateId store.drawn)
        drawn := store.drawn + 1
        issued := store.issued.insert (draws.generateToken store.drawn) (draws.generateId store.drawn)
        calls := .mintById (minted draws store spec now) :: store.calls } := by
  rw [mint]
  simp only [token_unindexed distinct inv]
  rfl

-- Drawing a token keeps what was drawn before.
theorem fresh_insert (inv : Inv draws store) (token owner : String) (absent : store.issued.lookup token = none)
    (isToken : token = draws.generateToken store.drawn)
    (isOwner : ∃ draw < store.drawn + 1, owner = draws.generateId draw) (other id : String)
    (found : (store.issued.insert token owner).lookup other = some id) :
    (∃ draw < store.drawn + 1, other = draws.generateToken draw) ∧ ∃ draw < store.drawn + 1, id = draws.generateId draw := by
  rcases (lookup_insert_iff _ _ _ _ _ absent).mp found with ⟨rfl, rfl⟩ | before
  · exact ⟨⟨store.drawn, Nat.lt_succ_self _, isToken⟩, isOwner⟩
  · obtain ⟨⟨draw, bound, same⟩, idDraw, idBound, idSame⟩ := inv.fresh other id before
    exact ⟨⟨draw, Nat.lt_succ_of_lt bound, same⟩, idDraw, Nat.lt_succ_of_lt idBound, idSame⟩

-- A call stays sound while tokens are issued, other tokens retired and other records written.
theorem sound_grows {after : InMemoryStreamKeyStore} {call : Call} (sound : store.Sound call)
    (issued : ∀ token id, store.issued.lookup token = some id → after.issued.lookup token = some id)
    (live : ∀ key, call = .mintById key → key.token ∉ store.retired → key.token ∉ after.retired)
    (retired : ∀ token, token ∈ store.retired → token ∈ after.retired)
    (unborn : ∀ key, call = .mintById key → store.byId.lookup key.id = none → after.byId.lookup key.id = none) :
    after.Sound call := by
  cases call with
  | mintById key =>
      obtain ⟨isIssued, isLive, absent, viable⟩ := sound
      exact ⟨issued _ _ isIssued, live key rfl isLive, unborn key rfl absent, viable⟩
  | revokeToken id token => exact ⟨issued _ _ sound.1, retired token sound.2⟩
  | rotateRemove id priorToken newToken =>
      exact ⟨issued _ _ sound.1, retired priorToken sound.2.1, issued _ _ sound.2.2⟩
  | rotateInsert id newToken => exact issued _ _ sound

theorem mint_inv (distinct : draws.Distinct) (inv : Inv draws store) (spec : StreamKeySpec) (now : Nat) :
    Inv draws (store.mint draws spec now) := by
  have absent := token_unissued distinct inv
  have idFree := id_unissued distinct inv
  obtain ⟨grows, unretired, noInsert, noRemove, noMint⟩ :=
    fresh_issue inv (draws.generateToken store.drawn) (draws.generateId store.drawn) absent
  have noRecord : store.byId.lookup (draws.generateId store.drawn) = none := by
    cases found : store.byId.lookup (draws.generateId store.drawn) with
    | none => rfl
    | some key => exact absurd (inv.record _ key found).2.1 (idFree key.token)
  rw [mint_distinct distinct inv spec now]
  have owes : ∀ item : Due, item ≠ .mints (draws.generateToken store.drawn) →
      (item ∈ Due.mints (draws.generateToken store.drawn) :: store.due ↔ item ∈ store.due) := by
    intro item differ
    simp [differ]
  have same := fun token id => accounted_congr store
    { store with
      byToken := store.byToken.insert (draws.generateToken store.drawn) (draws.generateId store.drawn)
      drawn := store.drawn + 1
      issued := store.issued.insert (draws.generateToken store.drawn) (draws.generateId store.drawn)
      calls := .mintById (minted draws store spec now) :: store.calls }
    token id Iff.rfl (owes (.removes token) (by simp)) rfl
  refine ⟨?record, ?sole, ?index, ?owed, ?distinct, ?sound, ?early, ?retired, ?fresh, ?quiet⟩
  case record =>
      intro id key found
      obtain ⟨isId, issued, live, viable⟩ := inv.record id key found
      exact ⟨isId, grows _ _ issued, live, viable⟩
  case sole =>
      exact sole_insert inv _ _ absent store.retired (fun _ old => old) fun token found => absurd found (idFree token)
  case index =>
      intro token id
      rw [lookup_insert_iff _ _ _ _ _ (token_unindexed distinct inv), lookup_insert_iff _ _ _ _ _ absent]
      constructor
      · rintro (⟨rfl, rfl⟩ | indexed)
        · exact ⟨.inl ⟨rfl, rfl⟩, fun owing => noInsert ((owes _ (by simp)).mp owing), fun retired => absurd retired unretired⟩
        · obtain ⟨issued, inserted, accounted⟩ := (inv.index token id).mp indexed
          exact ⟨.inr issued, fun owing => inserted ((owes _ (by simp)).mp owing), (same token id).mpr accounted⟩
      · rintro ⟨⟨rfl, rfl⟩ | issued, inserted, accounted⟩
        · exact .inl ⟨rfl, rfl⟩
        · have owed := fun owing => inserted ((owes _ (by simp)).mpr owing)
          exact .inr ((inv.index token id).mpr ⟨issued, owed, (same token id).mp accounted⟩)
  case owed =>
      intro token id found owing
      rcases (lookup_insert_iff _ _ _ _ _ absent).mp found with ⟨rfl, rfl⟩ | issued
      · exact fun retired => absurd retired unretired
      · exact (same token id).mpr (inv.owed token id issued ((owes _ (by simp)).mp owing))
  case distinct =>
      exact List.nodup_cons.mpr ⟨noMint, inv.distinct⟩
  case sound =>
      intro call isCall
      rcases List.mem_cons.mp isCall with isNew | before
      · rw [isNew]
        exact ⟨AList.lookup_insert _, unretired, noRecord, fun expiry => expiry_positive spec.ttlSeconds now expiry⟩
      · exact sound_grows (inv.sound call before) grows (fun _ _ => id) (fun _ => id) (fun _ _ => id)
  case early =>
      intro token id early
      obtain ⟨issued, retired, removed⟩ := inv.early token id early
      exact ⟨grows _ _ issued, retired, fun owing => removed ((owes _ (by simp)).mp owing)⟩
  case retired =>
      intro token retired
      obtain ⟨id, issued⟩ := inv.retired token retired
      exact ⟨id, grows _ _ issued⟩
  case fresh =>
      exact fresh_insert inv _ _ absent rfl ⟨store.drawn, Nat.lt_succ_self _, rfl⟩
  case quiet =>
      exact inv.quiet

theorem rotated_viable (key : StreamKey) (overrideSpec : Option StreamKeySpec) (newToken : String) (now : Nat)
    (viable : Viable key) : Viable (rotated key overrideSpec newToken now) := by
  cases overrideSpec with
  | none => exact viable
  | some spec => exact fun expiry => expiry_positive spec.ttlSeconds now expiry

theorem rotated_id (key : StreamKey) (overrideSpec : Option StreamKeySpec) (newToken : String) (now : Nat) :
    (rotated key overrideSpec newToken now).id = key.id ∧ (rotated key overrideSpec newToken now).token = newToken := by
  cases overrideSpec <;> exact ⟨rfl, rfl⟩

-- The token of a record is nobody else's, and its removal is not yet under way.
theorem record_token (inv : Inv draws store) (id : String) (key : StreamKey) (found : store.byId.lookup id = some key) :
    .removes key.token ∉ store.due ∧
      (∀ other one, store.byId.lookup other = some one → one.token = key.token → other = id) ∧
      ∀ one, .mintById one ∈ store.calls → one.token ≠ key.token := by
  obtain ⟨_, issued, live, _⟩ := inv.record id key found
  refine ⟨fun owing => live (removes_retired inv _ owing), ?_, ?_⟩
  · intro other one there same
    have owner := (inv.record other one there).2.1
    rw [same, issued] at owner
    exact (Option.some.inj owner).symm
  · intro one minting same
    obtain ⟨owner, _, absent, _⟩ := inv.sound _ minting
    rw [same, issued] at owner
    rw [← Option.some.inj owner, found] at absent
    cases absent

-- What a revocation and a rotation have in common: the token of a record leaves it
-- and is to be removed.
structure Retires (store after : InMemoryStreamKeyStore) (id : String) (key : StreamKey) : Prop where
  found : store.byId.lookup id = some key
  retired : after.retired = key.token :: store.retired
  early : after.early = store.early
  removes : ∀ token, .removes token ∈ after.due ↔ token = key.token ∨ .removes token ∈ store.due
  issued : ∀ token owner, store.issued.lookup token = some owner → after.issued.lookup token = some owner
  elsewhere : ∀ other, other ≠ id → after.byId.lookup other = store.byId.lookup other

section Retires

variable {after : InMemoryStreamKeyStore} {id : String} {key : StreamKey}

theorem retires_accounted (inv : Inv draws store) (retires : Retires store after id key) (token owner : String) :
    after.Accounted token owner ↔ store.Accounted token owner := by
  have live := (inv.record id key retires.found).2.2.1
  rw [Accounted, Accounted, retires.retired, retires.early, retires.removes, List.mem_cons]
  constructor
  · intro accounted retired
    have differ : token ≠ key.token := fun same => live (same ▸ retired)
    exact (accounted (.inr retired)).imp_left fun owing => owing.resolve_left differ
  · rintro accounted (rfl | before)
    · exact .inl (.inl rfl)
    · exact (accounted before).imp_left .inr

theorem retires_live (inv : Inv draws store) (retires : Retires store after id key) (other : String) (one : StreamKey)
    (there : store.byId.lookup other = some one) (differ : other ≠ id) : one.token ∉ after.retired := by
  obtain ⟨_, others, _⟩ := record_token inv id key retires.found
  rw [retires.retired]
  intro member
  exact (List.mem_cons.mp member).elim (fun same => differ (others other one there same)) (inv.record other one there).2.2.1

theorem retires_early (inv : Inv draws store) (retires : Retires store after id key) (token owner : String)
    (isEarly : (token, owner) ∈ after.early) :
    after.issued.lookup token = some owner ∧ token ∈ after.retired ∧ .removes token ∉ after.due := by
  have live := (inv.record id key retires.found).2.2.1
  obtain ⟨owned, retired, removed⟩ := inv.early token owner (retires.early ▸ isEarly)
  rw [retires.retired, retires.removes]
  refine ⟨retires.issued _ _ owned, List.mem_cons_of_mem _ retired, fun owing => ?_⟩
  exact owing.elim (fun same => live (same ▸ retired)) removed

theorem retires_retired (inv : Inv draws store) (retires : Retires store after id key) (token : String)
    (retired : token ∈ after.retired) : ∃ owner, after.issued.lookup token = some owner := by
  rw [retires.retired] at retired
  rcases List.mem_cons.mp retired with rfl | before
  · exact ⟨id, retires.issued _ _ (inv.record id key retires.found).2.1⟩
  · obtain ⟨owner, owned⟩ := inv.retired token before
    exact ⟨owner, retires.issued _ _ owned⟩

theorem retires_sound (inv : Inv draws store) (retires : Retires store after id key) (call : Call)
    (isCall : call ∈ store.calls) : after.Sound call := by
  obtain ⟨_, _, noMinting⟩ := record_token inv id key retires.found
  refine sound_grows (inv.sound call isCall) retires.issued (fun one isMint isLive => ?_) (fun token retired => ?_)
    fun one _ isAbsent => ?_
  · rw [retires.retired]
    exact fun member => (List.mem_cons.mp member).elim (noMinting one (isMint ▸ isCall)) isLive
  · rw [retires.retired]
    exact List.mem_cons_of_mem _ retired
  · have differ : one.id ≠ id := by
      intro same
      rw [same, retires.found] at isAbsent
      cases isAbsent
    rw [retires.elsewhere one.id differ]
    exact isAbsent

end Retires

theorem rotate_inv (distinct : draws.Distinct) (inv : Inv draws store) (id : String)
    (overrideSpec : Option StreamKeySpec) (now : Nat) : Inv draws (store.rotate draws id overrideSpec now) := by
  cases found : store.byId.lookup id with
  | none =>
      rw [rotate, found]
      exact inv
  | some key =>
      have absent := token_unissued distinct inv
      obtain ⟨isId, issued, live, viable⟩ := inv.record id key found
      obtain ⟨noRemoval, _, _⟩ := record_token inv id key found
      obtain ⟨grows, unretired, noInsert, _, _⟩ := fresh_issue inv (draws.generateToken store.drawn) id absent
      let after : InMemoryStreamKeyStore := { store with
        byId := store.byId.insert id (rotated key overrideSpec (draws.generateToken store.drawn) now)
        calls := .rotateRemove id key.token (draws.generateToken store.drawn) :: store.calls
        drawn := store.drawn + 1
        issued := store.issued.insert (draws.generateToken store.drawn) id
        retired := key.token :: store.retired }
      have isAfter : store.rotate draws id overrideSpec now = after := by
        rw [rotate, found]
      have isDue : after.due = .removes key.token :: .inserts (draws.generateToken store.drawn) :: store.due := rfl
      have inserts : ∀ token, .inserts token ∈ after.due ↔
          token = draws.generateToken store.drawn ∨ .inserts token ∈ store.due := by
        intro token
        simp [isDue]
      have retires : Retires store after id key := by
        refine ⟨found, rfl, rfl, fun token => by simp [isDue], grows, fun other differ => ?_⟩
        exact (Table.lookup_insert_eq _ _ _ _).trans (if_neg differ)
      have before : ∀ token owner, store.issued.lookup token = some owner → token ≠ draws.generateToken store.drawn := by
        rintro token owner owned rfl
        rw [absent] at owned
        cases owned
      rw [isAfter]
      refine ⟨?record, ?sole, ?index, ?owed, ?distinct, ?sound, ?early, ?retired, ?fresh, ?quiet⟩
      case record =>
          intro other one isOne
          have inserted : (store.byId.insert id _).lookup other = some one := isOne
          by_cases same : other = id
          · rw [Table.lookup_insert_eq, if_pos same] at inserted
            cases inserted
            obtain ⟨sameId, sameToken⟩ := rotated_id key overrideSpec (draws.generateToken store.drawn) now
            rw [sameId, sameToken, isId, same]
            refine ⟨rfl, AList.lookup_insert _, ?_, rotated_viable key overrideSpec _ now viable⟩
            exact fun member => (List.mem_cons.mp member).elim (before key.token id issued).symm unretired
          · rw [Table.lookup_insert_eq, if_neg same] at inserted
            obtain ⟨isOther, owned, _, isViable⟩ := inv.record other one inserted
            exact ⟨isOther, grows _ _ owned, retires_live inv retires other one inserted same, isViable⟩
      case sole =>
          refine sole_insert inv _ _ absent _ (fun _ => List.mem_cons_of_mem _) fun token owned => ?_
          by_cases retired : token ∈ store.retired
          · exact List.mem_cons_of_mem _ retired
          · exact List.mem_cons.mpr (.inl (inv.sole id token key.token owned issued retired live))
      case index =>
          intro token owner
          rw [retires_accounted inv retires, inserts, not_or, inv.index token owner]
          have isIssued := lookup_insert_iff store.issued (draws.generateToken store.drawn) id token owner absent
          constructor
          · rintro ⟨owned, inserted, accounted⟩
            exact ⟨isIssued.mpr (.inr owned), ⟨before token owner owned, inserted⟩, accounted⟩
          · rintro ⟨owned, ⟨differ, inserted⟩, accounted⟩
            exact ⟨(isIssued.mp owned).resolve_left fun same => differ same.1, inserted, accounted⟩
      case owed =>
          intro token owner isIssued owing
          rw [retires_accounted inv retires]
          rcases (lookup_insert_iff _ _ _ _ _ absent).mp isIssued with ⟨rfl, _⟩ | owned
          · exact fun retired => absurd retired unretired
          · exact inv.owed token owner owned (((inserts token).mp owing).resolve_left (before token owner owned))
      case distinct =>
          refine List.nodup_cons.mpr ⟨?_, List.nodup_cons.mpr ⟨noInsert, inv.distinct⟩⟩
          exact fun owing => (List.mem_cons.mp owing).elim (fun same => by cases same) noRemoval
      case sound =>
          intro call isCall
          rcases List.mem_cons.mp isCall with rfl | old
          · exact ⟨grows _ _ issued, List.mem_cons_self, AList.lookup_insert _⟩
          · exact retires_sound inv retires call old
      case early =>
          exact retires_early inv retires
      case retired =>
          exact retires_retired inv retires
      case fresh =>
          obtain ⟨_, draw, bound, same⟩ := inv.fresh key.token id issued
          exact fresh_insert inv _ _ absent rfl ⟨draw, Nat.lt_succ_of_lt bound, same⟩
      case quiet =>
          exact inv.quiet

theorem revoke_inv (inv : Inv draws store) (id : String) : Inv draws (store.revoke id) := by
  cases found : store.byId.lookup id with
  | none =>
      rw [revoke, found]
      exact inv
  | some key =>
      obtain ⟨_, issued, _, _⟩ := inv.record id key found
      obtain ⟨noRemoval, _, _⟩ := record_token inv id key found
      let after : InMemoryStreamKeyStore := { store with
        byId := store.byId.erase id
        calls := .revokeToken id key.token :: store.calls
        retired := key.token :: store.retired }
      have isAfter : store.revoke id = after := by
        rw [revoke, found]
      have isDue : after.due = .removes key.token :: store.due := rfl
      have inserts : ∀ token, .inserts token ∈ after.due ↔ .inserts token ∈ store.due := by
        intro token
        simp [isDue]
      have erased : ∀ other, after.byId.lookup other = if other = id then none else store.byId.lookup other :=
        Table.lookup_erase_eq store.byId id
      have retires : Retires store after id key := by
        refine ⟨found, rfl, rfl, fun token => by simp [isDue], fun _ _ owned => owned, fun other differ => ?_⟩
        rw [erased, if_neg differ]
      rw [isAfter]
      refine ⟨?record, ?sole, ?index, ?owed, ?distinct, ?sound, ?early, ?retired, ?fresh, ?quiet⟩
      case record =>
          intro other one isOne
          rw [erased] at isOne
          split at isOne
          · cases isOne
          · rename_i differ
            obtain ⟨isOther, owned, _, isViable⟩ := inv.record other one isOne
            exact ⟨isOther, owned, retires_live inv retires other one isOne differ, isViable⟩
      case sole =>
          intro owner token other here there isLive otherLive
          exact inv.sole owner token other here there (fun old => isLive (List.mem_cons_of_mem _ old))
            fun old => otherLive (List.mem_cons_of_mem _ old)
      case index =>
          intro token owner
          rw [retires_accounted inv retires, inserts]
          exact inv.index token owner
      case owed =>
          intro token owner isIssued owing
          exact (retires_accounted inv retires token owner).mpr (inv.owed token owner isIssued ((inserts token).mp owing))
      case distinct =>
          exact List.nodup_cons.mpr ⟨noRemoval, inv.distinct⟩
      case sound =>
          intro call isCall
          rcases List.mem_cons.mp isCall with rfl | old
          · exact ⟨issued, List.mem_cons_self⟩
          · exact retires_sound inv retires call old
      case early =>
          exact retires_early inv retires
      case retired =>
          exact retires_retired inv retires
      case fresh =>
          exact inv.fresh
      case quiet =>
          exact inv.quiet

-- A call in progress in front of the others.
theorem inv_perm (inv : Inv draws store) (calls : List Call) (perm : store.calls.Perm calls) :
    Inv draws { store with calls := calls } := by
  have same : store.due.Perm (calls.flatMap dues) := perm.flatMap_right dues
  have owes : ∀ item, item ∈ ({ store with calls := calls } : InMemoryStreamKeyStore).due ↔ item ∈ store.due :=
    fun item => same.symm.mem_iff
  have accounts : ∀ token id, ({ store with calls := calls } : InMemoryStreamKeyStore).Accounted token id ↔
      store.Accounted token id := fun token id => accounted_congr store _ token id Iff.rfl (owes _) rfl
  refine ⟨?record, ?sole, ?index, ?owed, ?distinct, ?sound, ?early, ?retired, ?fresh, ?quiet⟩
  case record =>
      exact inv.record
  case sole =>
      exact inv.sole
  case index =>
      intro token id
      rw [owes, accounts]
      exact inv.index token id
  case owed =>
      intro token id issued owing
      exact (accounts token id).mpr (inv.owed token id issued ((owes _).mp owing))
  case distinct =>
      exact same.nodup_iff.mp inv.distinct
  case sound =>
      intro call isCall
      have sound := inv.sound call (perm.symm.subset isCall)
      cases call <;> exact sound
  case early =>
      intro token id early
      obtain ⟨owned, retired, removed⟩ := inv.early token id early
      exact ⟨owned, retired, fun owing => removed ((owes _).mp owing)⟩
  case retired =>
      exact inv.retired
  case fresh =>
      exact inv.fresh
  case quiet =>
      exact inv.quiet

theorem early_removed (store : InMemoryStreamKeyStore) (id token other owner : String) :
    (other, owner) ∈ (store.removeToken id token).early ↔
      (other = token ∧ owner = id ∧ store.byToken.lookup token = none) ∨ (other, owner) ∈ store.early := by
  simp only [removeToken]
  cases store.byToken.lookup token with
  | none => simp
  | some found => simp

theorem remove_inv (inv : Inv draws store) (calls : List Call) (id token : String)
    (owing : store.due = .removes token :: calls.flatMap dues) (sound : ∀ call ∈ calls, store.Sound call)
    (issued : store.issued.lookup token = some id) :
    Inv draws ({ store with calls := calls }.removeToken id token) := by
  let after := { store with calls := calls }.removeToken id token
  have owes : ∀ item, item ∈ store.due ↔ item = .removes token ∨ item ∈ after.due := by
    intro item
    rw [owing]
    exact List.mem_cons
  obtain ⟨once, distinct⟩ := List.nodup_cons.mp (owing ▸ inv.distinct)
  have retired := removes_retired inv token ((owes _).mpr (.inl rfl))
  have inserts : ∀ other, .inserts other ∈ after.due ↔ .inserts other ∈ store.due := by
    intro other
    simp [owes]
  have early := early_removed { store with calls := calls } id token
  have accounts : ∀ other owner, other ≠ token → (after.Accounted other owner ↔ store.Accounted other owner) := by
    intro other owner differ
    refine imp_congr_right fun _ => or_congr ?_ ?_
    · rw [owes, or_iff_right fun same => differ (Due.removes.inj same)]
    · refine (early other owner).trans (or_iff_right ?_)
      exact fun ⟨same, _⟩ => differ same
  refine ⟨?record, ?sole, ?index, ?owed, ?distinct, ?sound, ?early, ?retired, ?fresh, ?quiet⟩
  case record =>
      exact inv.record
  case sole =>
      exact inv.sole
  case index =>
      intro other owner
      have lookup : after.byToken.lookup other = if other = token then none else store.byToken.lookup other :=
        Table.lookup_erase_eq store.byToken token other
      show after.byToken.lookup other = some owner ↔
        store.issued.lookup other = some owner ∧ .inserts other ∉ after.due ∧ after.Accounted other owner
      rw [lookup]
      by_cases same : other = token
      · subst same
        rw [if_pos rfl]
        refine ⟨fun found => (by cases found), fun ⟨owned, inserted, accounted⟩ => ?_⟩
        rcases accounted retired with removal | isEarly
        · exact absurd removal once
        · rcases (early other owner).mp isEarly with ⟨_, _, absent⟩ | before
          · have waiting : store.Accounted other owner := fun _ => .inl ((owes _).mpr (.inl rfl))
            have found := (inv.index other owner).mpr ⟨owned, fun owing => inserted ((inserts other).mpr owing), waiting⟩
            exact absurd (absent.symm.trans found) (by simp)
          · exact absurd ((owes _).mpr (.inl rfl)) (inv.early other owner before).2.2
      · rw [if_neg same, inv.index other owner, inserts, accounts other owner same]
  case owed =>
      intro other owner owned waits
      by_cases same : other = token
      · subst same
        intro _
        have isOwner : owner = id := Option.some.inj (owned.symm.trans issued)
        refine .inr ((early other owner).mpr (.inl ⟨rfl, isOwner, ?_⟩))
        cases found : store.byToken.lookup other with
        | none => rfl
        | some one => exact absurd ((inserts other).mp waits) ((inv.index other one).mp found).2.1
      · exact (accounts other owner same).mpr (inv.owed other owner owned ((inserts other).mp waits))
  case distinct =>
      exact distinct
  case sound =>
      intro call isCall
      have before := sound call isCall
      cases call <;> exact before
  case early =>
      intro other owner isEarly
      rcases (early other owner).mp isEarly with ⟨rfl, rfl, _⟩ | before
      · exact ⟨issued, retired, once⟩
      · obtain ⟨owned, isRetired, removed⟩ := inv.early other owner before
        exact ⟨owned, isRetired, fun owing => removed ((owes _).mpr (.inr owing))⟩
  case retired =>
      exact inv.retired
  case fresh =>
      exact inv.fresh
  case quiet =>
      exact inv.quiet

theorem insert_inv (inv : Inv draws store) (calls : List Call) (id token : String)
    (owing : store.due = .inserts token :: calls.flatMap dues) (sound : ∀ call ∈ calls, store.Sound call)
    (issued : store.issued.lookup token = some id) :
    Inv draws ({ store with calls := calls }.insertToken id token) := by
  let after := { store with calls := calls }.insertToken id token
  have owes : ∀ item, item ∈ store.due ↔ item = .inserts token ∨ item ∈ after.due := by
    intro item
    rw [owing]
    exact List.mem_cons
  obtain ⟨once, distinct⟩ := List.nodup_cons.mp (owing ▸ inv.distinct)
  have unindexed : store.byToken.lookup token = none := by
    cases found : store.byToken.lookup token with
    | none => rfl
    | some one => exact absurd ((owes _).mpr (.inl rfl)) ((inv.index token one).mp found).2.1
  have accounts : ∀ other owner, after.Accounted other owner ↔ store.Accounted other owner := by
    intro other owner
    refine accounted_congr store after other owner Iff.rfl ?_ rfl
    simp [owes]
  refine ⟨?record, ?sole, ?index, ?owed, ?distinct, ?sound, ?early, ?retired, ?fresh, ?quiet⟩
  case record =>
      exact inv.record
  case sole =>
      exact inv.sole
  case index =>
      intro other owner
      show (store.byToken.insert token id).lookup other = some owner ↔
        store.issued.lookup other = some owner ∧ .inserts other ∉ after.due ∧ after.Accounted other owner
      rw [Table.lookup_insert_eq, accounts]
      by_cases same : other = token
      · subst same
        rw [if_pos rfl, issued]
        refine ⟨fun isOwner => ⟨isOwner, once, ?_⟩, fun ⟨isOwner, _⟩ => isOwner⟩
        exact inv.owed other owner (issued.trans isOwner) ((owes _).mpr (.inl rfl))
      · rw [if_neg same, inv.index other owner, owes, not_or]
        have differ : Due.inserts other ≠ .inserts token := fun isSame => same (Due.inserts.inj isSame)
        simp [differ]
  case owed =>
      intro other owner owned waits
      exact (accounts other owner).mpr (inv.owed other owner owned ((owes _).mpr (.inr waits)))
  case distinct =>
      exact distinct
  case sound =>
      intro call isCall
      have before := sound call isCall
      cases call <;> exact before
  case early =>
      intro other owner isEarly
      obtain ⟨owned, isRetired, removed⟩ := inv.early other owner isEarly
      exact ⟨owned, isRetired, fun owing => removed ((owes _).mpr (.inr owing))⟩
  case retired =>
      exact inv.retired
  case fresh =>
      exact inv.fresh
  case quiet =>
      show (store.panicked || (store.byToken.lookup token).isSome) = false
      rw [inv.quiet, unindexed]
      rfl

theorem record_inv (inv : Inv draws store) (calls : List Call) (key : StreamKey)
    (isNext : store.calls = .mintById key :: calls) :
    Inv draws ({ store with calls := calls }.resume (.mintById key)) := by
  let after := { store with calls := calls }.resume (.mintById key)
  have owing : store.due = .mints key.token :: calls.flatMap dues := by
    rw [due, isNext]
    rfl
  obtain ⟨once, distinct⟩ := List.nodup_cons.mp (owing ▸ inv.distinct)
  have owes : ∀ item, item ∈ store.due ↔ item = .mints key.token ∨ item ∈ after.due := by
    intro item
    rw [owing]
    exact List.mem_cons
  have accounts : ∀ other owner, after.Accounted other owner ↔ store.Accounted other owner := by
    intro other owner
    refine accounted_congr store after other owner Iff.rfl ?_ rfl
    simp [owes]
  have first : .mintById key ∈ store.calls := by simp [isNext]
  obtain ⟨issued, live, _, viable⟩ := inv.sound _ first
  refine ⟨?record, ?sole, ?index, ?owed, ?distinct, ?sound, ?early, ?retired, ?fresh, ?quiet⟩
  case record =>
      intro id one found
      have inserted : (store.byId.insert key.id key).lookup id = some one := found
      rcases Table.insert_cases inserted with ⟨rfl, rfl⟩ | ⟨_, before⟩
      · exact ⟨rfl, issued, live, viable⟩
      · exact inv.record id one before
  case sole =>
      exact inv.sole
  case index =>
      intro other owner
      show store.byToken.lookup other = some owner ↔
        store.issued.lookup other = some owner ∧ .inserts other ∉ after.due ∧ after.Accounted other owner
      rw [inv.index other owner, accounts, owes]
      simp
  case owed =>
      intro other owner owned waits
      exact (accounts other owner).mpr (inv.owed other owner owned ((owes _).mpr (.inr waits)))
  case distinct =>
      exact distinct
  case sound =>
      intro call isCall
      have before := inv.sound call (by rw [isNext]; exact List.mem_cons_of_mem _ isCall)
      refine sound_grows before (fun _ _ owned => owned) (fun _ _ => id) (fun _ => id) (fun one isMint absent => ?_)
      show (store.byId.insert key.id key).lookup one.id = none
      rw [Table.lookup_insert_eq, if_neg]
      · exact absent
      · intro same
        subst isMint
        have sameToken := inv.sole one.id one.token key.token before.1 (same ▸ issued) before.2.1 live
        refine once (List.mem_flatMap.mpr ⟨_, isCall, ?_⟩)
        rw [dues, sameToken]
        exact List.mem_singleton_self _
  case early =>
      intro other owner isEarly
      obtain ⟨owned, isRetired, removed⟩ := inv.early other owner isEarly
      exact ⟨owned, isRetired, fun owing => removed ((owes _).mpr (.inr owing))⟩
  case retired =>
      exact inv.retired
  case fresh =>
      exact inv.fresh
  case quiet =>
      exact inv.quiet

theorem resume_inv (inv : Inv draws store) (calls : List Call) (call : Call) (isNext : store.calls = call :: calls) :
    Inv draws ({ store with calls := calls }.resume call) := by
  have sound := inv.sound
  rw [isNext] at sound
  have later : ∀ other ∈ calls, store.Sound other := fun other member => sound other (List.mem_cons_of_mem _ member)
  have now := sound call List.mem_cons_self
  cases call with
  | mintById key => exact record_inv inv calls key isNext
  | revokeToken id token => exact remove_inv inv calls id token (by rw [due, isNext]; rfl) later now.1
  | rotateInsert id newToken => exact insert_inv inv calls id newToken (by rw [due, isNext]; rfl) later now
  | rotateRemove id priorToken newToken =>
      refine remove_inv inv (.rotateInsert id newToken :: calls) id priorToken (by rw [due, isNext]; rfl) ?_ now.1
      intro other member
      rcases List.mem_cons.mp member with rfl | isLater
      · exact now.2.2
      · exact later other isLater

theorem step_inv (distinct : draws.Distinct) (store : InMemoryStreamKeyStore) (op : StoreOp) (inv : Inv draws store) :
    Inv draws (store.step draws op) := by
  cases op with
  | mint spec now => exact mint_inv distinct inv spec now
  | revoke id => exact revoke_inv inv id
  | rotate id overrideSpec now => exact rotate_inv distinct inv id overrideSpec now
  | advance index =>
      rw [step]
      cases found : store.calls[index]? with
      | none => exact inv
      | some call =>
          obtain ⟨bound, isCall⟩ := List.getElem?_eq_some_iff.mp found
          have front : store.calls.Perm (call :: store.calls.eraseIdx index) := by
            rw [← isCall]
            exact (List.getElem_cons_eraseIdx_perm bound).symm
          exact resume_inv (inv_perm inv _ front) (store.calls.eraseIdx index) call rfl

theorem new_inv (draws : Draws) : Inv draws new where
  record := by
    intro id key found
    cases found
  sole := by
    intro id token other found
    cases found
  index := fun token id => ⟨fun found => (by cases found), fun ⟨found, _⟩ => (by cases found)⟩
  owed := by
    intro token id found
    cases found
  distinct := List.nodup_nil
  sound := by
    intro call isCall
    cases isCall
  early := by
    intro token id early
    cases early
  retired := by
    intro token retired
    cases retired
  fresh := by
    intro token id found
    cases found
  quiet := rfl

-- With no call in progress the index has the current tokens, and those that were
-- removed before they were inserted.
theorem settled_index (inv : Inv draws store) (settled : store.calls = []) (token id : String) :
    store.byToken.lookup token = some id ↔
      store.issued.lookup token = some id ∧ (token ∈ store.retired → (token, id) ∈ store.early) := by
  have nothing : ∀ item, item ∉ store.due := by
    intro item
    simp [due, settled]
  rw [inv.index token id, Accounted]
  simp [nothing]

theorem served_iff (inv : Inv draws store) (settled : store.calls = []) (token : String) (now : Nat) (key : StreamKey) :
    store.getByToken token now = some key ↔
      store.issued.lookup token = some key.id ∧ (token ∈ store.retired → (token, key.id) ∈ store.early) ∧
        store.byId.lookup key.id = some key ∧ isExpired key now = false := by
  have recorded : ∀ id one, store.byId.lookup id = some one → one.id = id := fun id one found => (inv.record id one found).1
  rw [← and_assoc, ← settled_index inv settled, getByToken]
  cases found : store.byToken.lookup token with
  | none => simp
  | some id =>
      cases isRecord : store.byId.lookup id with
      | none =>
          simp only [isRecord, reduceCtorEq, false_iff]
          rintro ⟨same, there, _⟩
          rw [← Option.some.inj same, isRecord] at there
          cases there
      | some one =>
          have isId := recorded id one isRecord
          cases expired : isExpired one now with
          | true =>
              simp only [isRecord, expired, if_true, reduceCtorEq, false_iff]
              rintro ⟨same, there, live⟩
              rw [← Option.some.inj same, isRecord] at there
              rw [← Option.some.inj there, expired] at live
              cases live
          | false =>
              simp only [isRecord, expired, Bool.false_eq_true, if_false, Option.some.injEq]
              constructor
              · rintro rfl
                exact ⟨isId.symm, isId.symm ▸ isRecord, expired⟩
              · rintro ⟨same, there, _⟩
                rw [← same, isRecord] at there
                exact Option.some.inj there

theorem viable_unexpired (key : StreamKey) (viable : Viable key) : isExpired key 0 = false := by
  rw [isExpired]
  split
  · rename_i expiry expires
    have positive := viable expiry expires
    simp
    omega
  · rfl

theorem settled_consistent_iff (inv : Inv draws store) (settled : store.calls = []) :
    store.Consistent ↔ ∀ token id, (token, id) ∈ store.early → store.byId.lookup id = none := by
  constructor
  · intro consistent token id isEarly
    obtain ⟨issued, retired, _⟩ := inv.early token id isEarly
    cases found : store.byId.lookup id with
    | none => rfl
    | some key =>
        obtain ⟨isId, _, _, viable⟩ := inv.record id key found
        have served := (served_iff inv settled token 0 key).mpr
          ⟨isId ▸ issued, fun _ => isId ▸ isEarly, isId ▸ found, viable_unexpired key viable⟩
        rw [consistent.forgets token 0 retired] at served
        cases served
  · intro gone
    have forgotten : ∀ token key, token ∈ store.retired → (token, key.id) ∈ store.early →
        store.byId.lookup key.id ≠ some key := by
      intro token key _ isEarly found
      rw [gone token key.id isEarly] at found
      cases found
    refine ⟨fun token now key => ?_, fun token now retired => ?_⟩
    · rw [served_iff inv settled token now key]
      constructor
      · intro ⟨issued, accounted, found, live⟩
        have current : token ∉ store.retired := fun retired => forgotten token key retired (accounted retired) found
        obtain ⟨_, owned, unretired, _⟩ := inv.record key.id key found
        exact ⟨found, inv.sole key.id key.token token owned issued unretired current, live⟩
      · rintro ⟨found, rfl, live⟩
        obtain ⟨_, owned, unretired, _⟩ := inv.record key.id key found
        exact ⟨owned, fun retired => absurd retired unretired, found, live⟩
    · cases served : store.getByToken token now with
      | none => rfl
      | some key =>
          obtain ⟨_, accounted, found, _⟩ := (served_iff inv settled token now key).mp served
          exact absurd found (forgotten token key retired (accounted retired))

theorem store_consistent_iff (draws : Draws) (distinct : draws.Distinct) (ops : List StoreOp)
    (settled : (Machine.run (step draws) new ops).calls = []) :
    let store := Machine.run (step draws) new ops
    store.Consistent ↔ ∀ token id, (token, id) ∈ store.early → store.byId.lookup id = none :=
  settled_consistent_iff (Machine.invariant_of_run (step_inv distinct) new ops (new_inv draws)) settled

def padded (first : String) (draw : Nat) : String := first ++ String.ofList (List.replicate draw 'A')

theorem padded_injective (first : String) : Function.Injective (padded first) := by
  intro draw other same
  have lists := congrArg String.toList same
  simp only [padded, String.toList_append, String.toList_ofList, List.append_cancel_left_eq] at lists
  simpa using congrArg List.length lists

def countedDraws : Draws := ⟨padded "lvqr_sk_", padded "key"⟩

theorem counted_distinct : countedDraws.Distinct := ⟨padded_injective _, padded_injective _⟩

def openSpec : StreamKeySpec := ⟨none, none, none⟩

def mintAndRotate : List StoreOp :=
  [.mint openSpec 100, .advance 0, .rotate "key" none 200, .advance 0, .advance 0]

theorem mint_and_rotate_consistent :
    (Machine.run (step countedDraws) new mintAndRotate).calls = [] ∧
      (Machine.run (step countedDraws) new mintAndRotate).Consistent := by
  have settled : (Machine.run (step countedDraws) new mintAndRotate).calls = [] := rfl
  have early : (Machine.run (step countedDraws) new mintAndRotate).early = [] := rfl
  refine ⟨settled, (store_consistent_iff countedDraws counted_distinct mintAndRotate settled).mpr ?_⟩
  intro token id isEarly
  rw [early] at isEarly
  cases isEarly

-- Two rotations of one key, the second of which is through before the first goes on.
def overlappingRotations : List StoreOp :=
  [.mint openSpec 100, .advance 0, .rotate "key" none 200, .rotate "key" none 201, .advance 0, .advance 0, .advance 0,
    .advance 0]

theorem rotated_token_still_served :
    ¬∀ (draws : Draws) (ops : List StoreOp), draws.Distinct → (Machine.run (step draws) new ops).calls = [] →
      (Machine.run (step draws) new ops).Consistent := by
  intro always
  have consistent := always countedDraws overlappingRotations counted_distinct rfl
  have forgotten := consistent.forgets "lvqr_sk_A" 300 (by decide)
  have served : (Machine.run (step countedDraws) new overlappingRotations).getByToken "lvqr_sk_A" 300 =
      some ⟨"key", "lvqr_sk_AA", none, none, 201, none⟩ := rfl
  rw [served] at forgotten
  cases forgotten

end InMemoryStreamKeyStore

end Lvqr.Auth
