import Lvqr.Auth.Provider
import Lvqr.Auth.StreamKeys
import Lvqr.Lib.Utf8

set_option autoImplicit false

-- The provider chain that every surface asks: stream keys in front of a fallback, in a
-- cell that a config reload swaps. Checks run while keys are minted, rotated and revoked.
namespace Lvqr.Auth

open InMemoryStreamKeyStore (Inv)

-- Every pair of bytes is compared, whatever the earlier ones were.
def ctEq (a b : String) : Bool :=
  let a := Utf8.encode a.toList
  let b := Utf8.encode b.toList
  if a.length ≠ b.length then false
  else (a.zip b).foldl (fun diff (pair : UInt8 × UInt8) => diff ||| (pair.1 ^^^ pair.2)) 0 = 0

theorem diff_eq_zero_iff (a b : List UInt8) (same : a.length = b.length) (diff : UInt8) :
    (a.zip b).foldl (fun diff (pair : UInt8 × UInt8) => diff ||| (pair.1 ^^^ pair.2)) diff = 0 ↔ diff = 0 ∧ a = b := by
  induction a generalizing b diff with
  | nil =>
      rw [List.length_nil, eq_comm, List.length_eq_zero_iff] at same
      simp [same]
  | cons x a ih =>
      cases b with
      | nil => cases same
      | cons y b =>
          rw [List.zip_cons_cons, List.foldl_cons, ih b (Nat.succ.inj same), UInt8.or_eq_zero_iff,
            UInt8.xor_eq_zero_iff, List.cons_eq_cons, and_assoc]

theorem ct_eq_iff (a b : String) : ctEq a b = true ↔ a = b := by
  rw [ctEq]
  split
  · rename_i differs
    simp only [Bool.false_eq_true, false_iff]
    rintro rfl
    exact differs rfl
  · rename_i same
    rw [decide_eq_true_iff, diff_eq_zero_iff _ _ (Classical.not_not.mp same)]
    constructor
    · intro ⟨_, bytes⟩
      exact String.toList_inj.mp (Utf8.encode_injective _ _ bytes)
    · rintro rfl
      exact ⟨rfl, rfl⟩

structure StaticAuthConfig where
  adminToken : Option String
  publishKey : Option String
  subscribeToken : Option String
deriving DecidableEq, Repr

def noopCheck : AuthProvider := fun _ => .allow

def staticCheck (config : StaticAuthConfig) : AuthProvider
  | .publish _ key _ =>
      match config.publishKey with
      | none => .allow
      | some expected => if ctEq expected key then .allow else .deny "invalid publish key"
  | .subscribe token _ =>
      match config.subscribeToken, token with
      | none, _ => .allow
      | some expected, some token => if ctEq expected token then .allow else .deny "invalid or missing subscribe token"
      | some _, none => .deny "invalid or missing subscribe token"
  | .admin token =>
      match config.adminToken with
      | none => .allow
      | some expected => if ctEq expected token then .allow else .deny "invalid admin token"

def delegate (fallback : Option AuthProvider) (ctx : AuthContext) : AuthDecision :=
  match fallback with
  | some fallback => fallback ctx
  | none => .deny "no fallback auth provider configured"

-- A publish whose key the store has is decided here alone.
def decideEntry (entry : StreamKey) (requested : Option String) : AuthDecision :=
  match entry.broadcast, requested with
  | none, _ => .allow
  | some scope, some requested =>
      if scope = requested then .allow else .deny "stream-key scoped to a different broadcast"
  | some _, none => .deny "stream-key requires a broadcast scope"

theorem decide_entry_allows (entry : StreamKey) (requested : Option String)
    (allowed : decideEntry entry requested = .allow) : ∀ scope ∈ entry.broadcast, requested = some scope := by
  intro scope isScope
  unfold decideEntry at allowed
  rw [Option.mem_def.mp isScope] at allowed
  cases requested with
  | none => cases allowed
  | some other =>
      dsimp only at allowed
      split at allowed
      · rename_i same
        rw [same]
      · cases allowed

-- What the hot-reload cell holds.
inductive Held where
  | bare (inner : AuthProvider)
  | multiKey (fallback : Option AuthProvider)

def Held.fallback : Held → AuthProvider
  | .bare inner => inner
  | .multiKey fallback => delegate fallback

-- A check in progress: it has loaded the cell, and then read the token index.
inductive Checking where
  | loaded (ctx : AuthContext) (held : Held)
  | indexed (app key : String) (broadcast : Option String) (held : Held) (id : String)

-- `found` is the record the decision rests on.
structure Answer where
  ctx : AuthContext
  held : Held
  found : Option StreamKey
  decision : AuthDecision
  now : Nat

structure AuthService where
  store : InMemoryStreamKeyStore
  current : Held
  checks : List Checking
  answers : List Answer

inductive ServiceOp where
  | store (op : StoreOp)
  | swap (held : Held)
  | check (ctx : AuthContext)
  | advance (index now : Nat)

namespace AuthService

def start (held : Held) : AuthService := ⟨.new, held, [], []⟩

def answer (service : AuthService) (ctx : AuthContext) (held : Held) (found : Option StreamKey) (decision : AuthDecision)
    (now : Nat) : AuthService :=
  { service with answers := service.answers ++ [⟨ctx, held, found, decision, now⟩] }

def lookIndex (service : AuthService) (ctx : AuthContext) (held : Held) (now : Nat) : AuthService :=
  match held, ctx with
  | .multiKey fallback, .publish app key broadcast =>
      match service.store.byToken.lookup key with
      | none => service.answer ctx held none (delegate fallback ctx) now
      | some id => { service with checks := .indexed app key broadcast held id :: service.checks }
  | held, ctx => service.answer ctx held none (held.fallback ctx) now

def lookRecord (service : AuthService) (app key : String) (broadcast : Option String) (held : Held) (id : String)
    (now : Nat) : AuthService :=
  let ctx : AuthContext := .publish app key broadcast
  match service.store.byId.lookup id with
  | none => service.answer ctx held none (held.fallback ctx) now
  | some entry =>
      if isExpired entry now then service.answer ctx held none (held.fallback ctx) now
      else service.answer ctx held (some entry) (decideEntry entry broadcast) now

def resume (service : AuthService) (now : Nat) : Checking → AuthService
  | .loaded ctx held => service.lookIndex ctx held now
  | .indexed app key broadcast held id => service.lookRecord app key broadcast held id now

def step (draws : Draws) (service : AuthService) : ServiceOp → AuthService
  | .store op => { service with store := service.store.step draws op }
  | .swap held => { service with current := held }
  | .check ctx => { service with checks := .loaded ctx service.current :: service.checks }
  | .advance index now =>
      match service.checks[index]? with
      | none => service
      | some checking => { service with checks := service.checks.eraseIdx index }.resume now checking

end AuthService

section Issued

variable {draws : Draws} {store : InMemoryStreamKeyStore}

theorem resume_issued (store : InMemoryStreamKeyStore) (call : Call) : (store.resume call).issued = store.issued := by
  cases call with
  | mintById key => rfl
  | revokeToken id token => rfl
  | rotateRemove id priorToken newToken => rfl
  | rotateInsert id newToken => rfl

-- A token stays with the id it was made for.
theorem step_issued (distinct : draws.Distinct) (inv : Inv draws store) (op : StoreOp) (token id : String)
    (issued : store.issued.lookup token = some id) : (store.step draws op).issued.lookup token = some id := by
  have grows := fun owner => (InMemoryStreamKeyStore.fresh_issue inv (draws.generateToken store.drawn) owner
    (InMemoryStreamKeyStore.token_unissued distinct inv)).1 token id issued
  cases op with
  | mint spec now =>
      rw [InMemoryStreamKeyStore.step, InMemoryStreamKeyStore.mint_distinct distinct inv]
      exact grows _
  | revoke other =>
      rw [InMemoryStreamKeyStore.step, InMemoryStreamKeyStore.revoke]
      split
      · exact issued
      · exact issued
  | rotate other overrideSpec now =>
      rw [InMemoryStreamKeyStore.step, InMemoryStreamKeyStore.rotate]
      split
      · exact issued
      · exact grows _
  | advance index =>
      rw [InMemoryStreamKeyStore.step]
      split
      · exact issued
      · rw [resume_issued]
        exact issued

-- No record has the id, and none will.
structure Gone (draws : Draws) (store : InMemoryStreamKeyStore) (id : String) : Prop where
  absent : store.byId.lookup id = none
  unborn : ∀ key, .mintById key ∈ store.calls → key.id ≠ id
  drawn : ∃ draw < store.drawn, id = draws.generateId draw

theorem revoke_gone (inv : Inv draws store) (id : String) (key : StreamKey)
    (recorded : store.byId.lookup id = some key) : Gone draws (store.step draws (.revoke id)) id := by
  rw [InMemoryStreamKeyStore.step, InMemoryStreamKeyStore.revoke, recorded]
  refine ⟨?_, ?_, ?_⟩
  · dsimp only
    rw [Table.lookup_erase_eq, if_pos rfl]
  · intro other minting same
    rcases List.mem_cons.mp minting with isRevoke | earlier
    · cases isRevoke
    · have absent := (inv.sound _ earlier).2.2.1
      rw [same, recorded] at absent
      cases absent
  · exact (inv.fresh _ id (inv.record id key recorded).2.1).2

theorem step_gone (distinct : draws.Distinct) (inv : Inv draws store) (id : String) (gone : Gone draws store id)
    (op : StoreOp) : Gone draws (store.step draws op) id := by
  obtain ⟨absent, unborn, draw, before, isDraw⟩ := gone
  cases op with
  | mint spec now =>
      rw [InMemoryStreamKeyStore.step, InMemoryStreamKeyStore.mint_distinct distinct inv]
      refine ⟨absent, ?_, draw, Nat.lt_succ_of_lt before, isDraw⟩
      intro key minting
      rcases List.mem_cons.mp minting with isMint | earlier
      · cases isMint
        intro same
        exact absurd (distinct.ids (same.trans isDraw)) (Nat.ne_of_gt before)
      · exact unborn key earlier
  | revoke other =>
      rw [InMemoryStreamKeyStore.step, InMemoryStreamKeyStore.revoke]
      split
      · exact ⟨absent, unborn, draw, before, isDraw⟩
      · refine ⟨?_, ?_, draw, before, isDraw⟩
        · dsimp only
          rw [Table.lookup_erase_eq, absent, ite_self]
        · intro key minting
          rcases List.mem_cons.mp minting with isRevoke | earlier
          · cases isRevoke
          · exact unborn key earlier
  | rotate other overrideSpec now =>
      rw [InMemoryStreamKeyStore.step, InMemoryStreamKeyStore.rotate]
      split
      · exact ⟨absent, unborn, draw, before, isDraw⟩
      · rename_i key recorded
        refine ⟨?_, ?_, draw, Nat.lt_succ_of_lt before, isDraw⟩
        · dsimp only
          rw [Table.lookup_insert_eq, if_neg]
          · exact absent
          · rintro rfl
            rw [absent] at recorded
            cases recorded
        · intro key minting
          rcases List.mem_cons.mp minting with isRotate | earlier
          · cases isRotate
          · exact unborn key earlier
  | advance index =>
      rw [InMemoryStreamKeyStore.step]
      split
      · exact ⟨absent, unborn, draw, before, isDraw⟩
      · rename_i call found
        have pending := List.mem_of_getElem? found
        have rest : ∀ other, other ∈ store.calls.eraseIdx index → other ∈ store.calls :=
          fun other member => List.mem_of_mem_eraseIdx member
        cases call with
        | mintById key =>
            refine ⟨?_, fun other minting => unborn other (rest _ minting), draw, before, isDraw⟩
            dsimp only [InMemoryStreamKeyStore.resume]
            rw [Table.lookup_insert_eq, if_neg (Ne.symm (unborn key pending))]
            exact absent
        | revokeToken other token => exact ⟨absent, fun key minting => unborn key (rest _ minting), draw, before, isDraw⟩
        | rotateInsert other token => exact ⟨absent, fun key minting => unborn key (rest _ minting), draw, before, isDraw⟩
        | rotateRemove other priorToken newToken =>
            refine ⟨absent, ?_, draw, before, isDraw⟩
            intro key minting
            rcases List.mem_cons.mp minting with isInsert | earlier
            · cases isInsert
            · exact unborn key (rest _ earlier)

end Issued

namespace AuthService

section Runs

variable (draws : Draws) (held : Held)

def WasCurrent (ops : List ServiceOp) (one : Held) : Prop :=
  ∃ seen, seen <+: ops ∧ (Machine.run (step draws) (start held) seen).current = one

def WasRecorded (ops : List ServiceOp) (key : StreamKey) : Prop :=
  ∃ seen, seen <+: ops ∧ (Machine.run (step draws) (start held) seen).store.byId.lookup key.id = some key

def IssuedFor (ops : List ServiceOp) (token id : String) : Prop :=
  (Machine.run (step draws) (start held) ops).store.issued.lookup token = some id

-- The record that decides a publish: it was there, unexpired, under an id that the
-- token was made for.
structure Rests (ops : List ServiceOp) (answer : Answer) (key : StreamKey) (token : String) (broadcast : Option String) :
    Prop where
  asked : ∃ app, answer.ctx = .publish app token broadcast
  issued : IssuedFor draws held ops token key.id
  recorded : WasRecorded draws held ops key
  live : isExpired key answer.now = false
  decided : answer.decision = decideEntry key broadcast

inductive Justified (ops : List ServiceOp) (answer : Answer) : Prop where
  | keyed (key : StreamKey) (token : String) (broadcast : Option String) (isFound : answer.found = some key)
      (rests : Rests draws held ops answer key token broadcast)
  | delegated (absent : answer.found = none) (current : WasCurrent draws held ops answer.held)
      (decided : answer.decision = answer.held.fallback answer.ctx)

def CheckSound (ops : List ServiceOp) : Checking → Prop
  | .loaded _ one => WasCurrent draws held ops one
  | .indexed _ key _ one id => WasCurrent draws held ops one ∧ IssuedFor draws held ops key id

structure Sound (ops : List ServiceOp) : Prop where
  store : Inv draws (Machine.run (step draws) (start held) ops).store
  checks : ∀ checking ∈ (Machine.run (step draws) (start held) ops).checks, CheckSound draws held ops checking
  answers : ∀ answer ∈ (Machine.run (step draws) (start held) ops).answers, Justified draws held ops answer

variable {draws held}

theorem WasCurrent.grows {ops more : List ServiceOp} {one : Held} (was : WasCurrent draws held ops one) :
    WasCurrent draws held (ops ++ more) one := by
  obtain ⟨seen, isPrefix, current⟩ := was
  exact ⟨seen, isPrefix.trans (List.prefix_append _ _), current⟩

theorem WasRecorded.grows {ops more : List ServiceOp} {key : StreamKey} (was : WasRecorded draws held ops key) :
    WasRecorded draws held (ops ++ more) key := by
  obtain ⟨seen, isPrefix, recorded⟩ := was
  exact ⟨seen, isPrefix.trans (List.prefix_append _ _), recorded⟩

theorem resume_store (service : AuthService) (now : Nat) (checking : Checking) :
    (service.resume now checking).store = service.store := by
  cases checking with
  | loaded ctx one =>
      rw [resume, lookIndex.eq_def]
      split
      · split
        · rfl
        · rfl
      · rfl
  | indexed app key broadcast one id =>
      rw [resume, lookRecord]
      split
      · rfl
      · split
        · rfl
        · rfl

theorem step_store (distinct : draws.Distinct) (service : AuthService) (op : ServiceOp) (inv : Inv draws service.store) :
    Inv draws (service.step draws op).store ∧ ∀ token id, service.store.issued.lookup token = some id →
      (service.step draws op).store.issued.lookup token = some id := by
  cases op with
  | store op =>
      exact ⟨InMemoryStreamKeyStore.step_inv distinct service.store op inv, fun token id issued =>
        step_issued distinct inv op token id issued⟩
  | swap one => exact ⟨inv, fun _ _ issued => issued⟩
  | check ctx => exact ⟨inv, fun _ _ issued => issued⟩
  | advance index now =>
      rw [step]
      split
      · exact ⟨inv, fun _ _ issued => issued⟩
      · rw [resume_store]
        exact ⟨inv, fun _ _ issued => issued⟩

-- What a step does to a check: it answers it or leaves it with what the index has.
inductive Resumed (service after : AuthService) (now : Nat) : Checking → Prop where
  | delegates (checking : Checking) (ctx : AuthContext) (one : Held)
      (asks : checking = .loaded ctx one ∨ ∃ app key broadcast id,
        checking = .indexed app key broadcast one id ∧ ctx = .publish app key broadcast)
      (same : after = service.answer ctx one none (one.fallback ctx) now) : Resumed service after now checking
  | indexes (app key : String) (broadcast : Option String) (one : Held) (id : String)
      (indexed : service.store.byToken.lookup key = some id)
      (same : after = { service with checks := .indexed app key broadcast one id :: service.checks }) :
      Resumed service after now (.loaded (.publish app key broadcast) one)
  | decides (app key : String) (broadcast : Option String) (one : Held) (id : String) (entry : StreamKey)
      (recorded : service.store.byId.lookup id = some entry) (live : isExpired entry now = false)
      (same : after = service.answer (.publish app key broadcast) one (some entry) (decideEntry entry broadcast) now) :
      Resumed service after now (.indexed app key broadcast one id)

theorem resume_resumed (service : AuthService) (now : Nat) (checking : Checking) :
    Resumed service (service.resume now checking) now checking := by
  cases checking with
  | loaded ctx one =>
      rw [resume, lookIndex.eq_def]
      split
      · split
        · exact .delegates _ _ _ (.inl rfl) rfl
        · rename_i id indexed
          exact .indexes _ _ _ _ id indexed rfl
      · exact .delegates _ _ _ (.inl rfl) rfl
  | indexed app key broadcast one id =>
      rw [resume, lookRecord]
      split
      · exact .delegates _ _ _ (.inr ⟨app, key, broadcast, id, rfl, rfl⟩) rfl
      · rename_i entry recorded
        split
        · exact .delegates _ _ _ (.inr ⟨app, key, broadcast, id, rfl, rfl⟩) rfl
        · rename_i live
          exact .decides app key broadcast one id entry recorded (Bool.eq_false_iff.mpr live) rfl

theorem issued_grows (distinct : draws.Distinct) (ops : List ServiceOp) (op : ServiceOp)
    (inv : Inv draws (Machine.run (step draws) (start held) ops).store) (token id : String)
    (issued : IssuedFor draws held ops token id) : IssuedFor draws held (ops ++ [op]) token id := by
  rw [IssuedFor, Machine.run_snoc]
  exact (step_store distinct _ op inv).2 token id issued

theorem check_grows (distinct : draws.Distinct) (ops : List ServiceOp) (op : ServiceOp)
    (inv : Inv draws (Machine.run (step draws) (start held) ops).store) (checking : Checking)
    (sound : CheckSound draws held ops checking) : CheckSound draws held (ops ++ [op]) checking := by
  cases checking with
  | loaded ctx one => exact sound.grows
  | indexed app key broadcast one id => exact ⟨sound.1.grows, issued_grows distinct ops op inv key id sound.2⟩

theorem justified_grows (distinct : draws.Distinct) (ops : List ServiceOp) (op : ServiceOp)
    (inv : Inv draws (Machine.run (step draws) (start held) ops).store) (answer : Answer)
    (justified : Justified draws held ops answer) : Justified draws held (ops ++ [op]) answer := by
  cases justified with
  | keyed key token broadcast isFound rests =>
      have issued := issued_grows distinct ops op inv token key.id rests.issued
      exact .keyed key token broadcast isFound ⟨rests.asked, issued, rests.recorded.grows, rests.live, rests.decided⟩
  | delegated absent current decided => exact .delegated absent current.grows decided

-- What becomes of a check that goes on, where all is sound so far.
theorem resumed_sound (distinct : draws.Distinct) (ops : List ServiceOp) (index now : Nat) (checking : Checking)
    (sound : Sound draws held ops)
    (found : (Machine.run (step draws) (start held) ops).checks[index]? = some checking)
    (after : AuthService) (resumed : Resumed { Machine.run (step draws) (start held) ops with
      checks := (Machine.run (step draws) (start held) ops).checks.eraseIdx index } after now checking) :
    (∀ checking ∈ after.checks, CheckSound draws held (ops ++ [.advance index now]) checking) ∧
      ∀ answer ∈ after.answers, Justified draws held (ops ++ [.advance index now]) answer := by
  have pending := sound.checks checking (List.mem_of_getElem? found)
  have kept : ∀ checking ∈ (Machine.run (step draws) (start held) ops).checks.eraseIdx index,
      CheckSound draws held (ops ++ [.advance index now]) checking := fun other member =>
    check_grows distinct ops _ sound.store other (sound.checks other (List.mem_of_mem_eraseIdx member))
  have given : ∀ answer ∈ (Machine.run (step draws) (start held) ops).answers,
      Justified draws held (ops ++ [.advance index now]) answer := fun answer member =>
    justified_grows distinct ops _ sound.store answer (sound.answers answer member)
  cases resumed with
  | delegates _ ctx one asks same =>
      subst same
      have current : WasCurrent draws held ops one := by
        rcases asks with rfl | ⟨app, key, broadcast, id, rfl, _⟩
        · exact pending
        · exact pending.1
      refine ⟨kept, fun answer member => ?_⟩
      rcases List.mem_append.mp member with earlier | last
      · exact given answer earlier
      · obtain rfl := List.mem_singleton.mp last
        exact .delegated rfl current.grows rfl
  | indexes app key broadcast one id indexed same =>
      subst same
      refine ⟨fun other member => ?_, given⟩
      rcases List.mem_cons.mp member with rfl | earlier
      · have issued := ((sound.store.index key id).mp indexed).1
        exact ⟨pending.grows, issued_grows distinct ops _ sound.store key id issued⟩
      · exact kept other earlier
  | decides app key broadcast one id entry recorded live same =>
      subst same
      refine ⟨kept, fun answer member => ?_⟩
      rcases List.mem_append.mp member with earlier | last
      · exact given answer earlier
      · obtain rfl := List.mem_singleton.mp last
        have isId := (sound.store.record id entry recorded).1
        subst isId
        have issued := issued_grows distinct ops (.advance index now) sound.store key entry.id pending.2
        have was : WasRecorded draws held ops entry := ⟨ops, List.prefix_refl ops, recorded⟩
        exact .keyed entry key broadcast rfl ⟨⟨app, rfl⟩, issued, was.grows, live, rfl⟩

theorem run_sound (distinct : draws.Distinct) (ops : List ServiceOp) : Sound draws held ops := by
  induction ops using List.reverseRecOn with
  | nil => exact ⟨InMemoryStreamKeyStore.new_inv draws, List.forall_mem_nil _, List.forall_mem_nil _⟩
  | append_singleton ops op sound =>
      have store : Inv draws (Machine.run (step draws) (start held) (ops ++ [op])).store := by
        rw [Machine.run_snoc]
        exact (step_store distinct _ op sound.store).1
      have kept := fun checking member =>
        check_grows distinct ops op sound.store checking (sound.checks checking member)
      have given := fun answer member => justified_grows distinct ops op sound.store answer (sound.answers answer member)
      cases op with
      | store op =>
          refine ⟨store, ?_, ?_⟩
          · rw [Machine.run_snoc]
            exact kept
          · rw [Machine.run_snoc]
            exact given
      | swap one =>
          refine ⟨store, ?_, ?_⟩
          · rw [Machine.run_snoc]
            exact kept
          · rw [Machine.run_snoc]
            exact given
      | check ctx =>
          refine ⟨store, ?_, ?_⟩
          · rw [Machine.run_snoc]
            intro checking member
            rcases List.mem_cons.mp member with rfl | earlier
            · exact ⟨ops, List.prefix_append _ _, rfl⟩
            · exact kept checking earlier
          · rw [Machine.run_snoc]
            exact given
      | advance index now =>
          cases found : (Machine.run (step draws) (start held) ops).checks[index]? with
          | none =>
              refine ⟨store, ?_, ?_⟩
              · rw [Machine.run_snoc, step, found]
                exact kept
              · rw [Machine.run_snoc, step, found]
                exact given
          | some checking =>
              obtain ⟨checks, answers⟩ := resumed_sound distinct ops index now checking sound found _
                (resume_resumed _ now checking)
              refine ⟨store, ?_, ?_⟩
              · rw [Machine.run_snoc, step, found]
                exact checks
              · rw [Machine.run_snoc, step, found]
                exact answers

-- A publish that is let in has a key on record that is not scoped elsewhere, or is let
-- in by the fallback that was in force when it asked.
theorem publish_admitted (distinct : draws.Distinct) (ops : List ServiceOp) (answer : Answer)
    (answered : answer ∈ (Machine.run (step draws) (start held) ops).answers) (app token : String)
    (broadcast : Option String) (asked : answer.ctx = .publish app token broadcast) (allowed : answer.decision = .allow) :
    (∃ key, IssuedFor draws held ops token key.id ∧ WasRecorded draws held ops key ∧
        isExpired key answer.now = false ∧ ∀ scope ∈ key.broadcast, broadcast = some scope) ∨
      answer.found = none ∧ WasCurrent draws held ops answer.held ∧ answer.held.fallback answer.ctx = .allow := by
  cases (run_sound distinct ops).answers answer answered with
  | delegated absent current decided =>
      rw [decided] at allowed
      exact .inr ⟨absent, current, allowed⟩
  | keyed key used named isFound rests =>
      obtain ⟨other, asks⟩ := rests.asked
      rw [asked] at asks
      cases asks
      have covers := decide_entry_allows key broadcast (rests.decided.symm.trans allowed)
      exact .inl ⟨key, rests.issued, rests.recorded, rests.live, covers⟩

-- Answers since a service, none of which rests on a record under the id.
def AnsweredWithout (id : String) (service after : AuthService) : Prop :=
  ∃ answers, after.answers = service.answers ++ answers ∧ ∀ answer ∈ answers, ∀ key ∈ answer.found, key.id ≠ id

theorem answered_same (id : String) (service after : AuthService) (same : after.answers = service.answers) :
    AnsweredWithout id service after := ⟨[], by rw [same, List.append_nil], List.forall_mem_nil _⟩

theorem AnsweredWithout.trans {id : String} {first second third : AuthService} (one : AnsweredWithout id first second)
    (two : AnsweredWithout id second third) : AnsweredWithout id first third := by
  obtain ⟨earlier, same, without⟩ := one
  obtain ⟨later, more, still⟩ := two
  refine ⟨earlier ++ later, by rw [more, same, List.append_assoc], fun answer member => ?_⟩
  rcases List.mem_append.mp member with here | there
  · exact without answer here
  · exact still answer there

theorem resumed_without {id : String} {service after : AuthService} {now : Nat} {checking : Checking}
    (inv : Inv draws service.store) (gone : Gone draws service.store id) (resumed : Resumed service after now checking) :
    AnsweredWithout id service after := by
  cases resumed with
  | delegates _ ctx one _ same =>
      subst same
      refine ⟨_, rfl, fun answer member => ?_⟩
      obtain rfl := List.mem_singleton.mp member
      intro key isFound
      cases isFound
  | indexes _ _ _ _ _ _ same =>
      subst same
      exact answered_same id _ _ rfl
  | decides app key broadcast one other entry recorded _ same =>
      subst same
      refine ⟨_, rfl, fun answer member => ?_⟩
      obtain rfl := List.mem_singleton.mp member
      intro found isFound
      obtain rfl := Option.some.inj isFound
      intro same
      have absent := gone.absent
      rw [← same, (inv.record other entry recorded).1, recorded] at absent
      cases absent

theorem step_without (distinct : draws.Distinct) (id : String) (service : AuthService) (op : ServiceOp)
    (inv : Inv draws service.store) (gone : Gone draws service.store id) :
    Gone draws (service.step draws op).store id ∧ AnsweredWithout id service (service.step draws op) := by
  cases op with
  | store op => exact ⟨step_gone distinct inv id gone op, answered_same id _ _ rfl⟩
  | swap one => exact ⟨gone, answered_same id _ _ rfl⟩
  | check ctx => exact ⟨gone, answered_same id _ _ rfl⟩
  | advance index now =>
      rw [step]
      split
      · exact ⟨gone, answered_same id _ _ rfl⟩
      · rename_i checking _
        rw [resume_store]
        have resumed := resume_resumed { service with checks := service.checks.eraseIdx index } now checking
        have without : AnsweredWithout id { service with checks := service.checks.eraseIdx index } _ :=
          resumed_without inv gone resumed
        exact ⟨gone, without⟩

theorem run_without (distinct : draws.Distinct) (id : String) (service : AuthService) (ops : List ServiceOp)
    (inv : Inv draws service.store) (gone : Gone draws service.store id) :
    AnsweredWithout id service (Machine.run (step draws) service ops) := by
  induction ops generalizing service with
  | nil => exact answered_same id _ _ rfl
  | cons op ops ih =>
      obtain ⟨still, without⟩ := step_without distinct id service op inv gone
      exact without.trans (ih _ (step_store distinct service op inv).1 still)

-- Once a record is removed, no token that was ever made for it decides a publish,
-- whatever the calls under way do to the index: the fallback alone answers.
theorem revoked_key_stays_out (distinct : draws.Distinct) (before after : List ServiceOp) (id : String) (key : StreamKey)
    (recorded : (Machine.run (step draws) (start held) before).store.byId.lookup id = some key) :
    let ops := before ++ .store (.revoke id) :: after
    ∀ answer ∈ (Machine.run (step draws) (start held) ops).answers.drop
        (Machine.run (step draws) (start held) before).answers.length,
      ∀ app token broadcast, answer.ctx = .publish app token broadcast → IssuedFor draws held ops token id →
        answer.decision = answer.held.fallback answer.ctx := by
  intro ops answer late app token broadcast asked issued
  have inv := (@run_sound draws held distinct before).store
  have gone := revoke_gone inv id key recorded
  have stored := (step_store distinct _ (.store (.revoke id)) inv).1
  obtain ⟨answers, same, without⟩ : AnsweredWithout id (Machine.run (step draws) (start held) before)
      (Machine.run (step draws) (start held) ops) := by
    rw [Machine.run_append, Machine.run_cons]
    exact (answered_same id _ _ rfl).trans (run_without distinct id _ after stored gone)
  have justified := (@run_sound draws held distinct ops).answers answer (List.mem_of_mem_drop late)
  rw [same, List.drop_left] at late
  cases justified with
  | delegated _ _ decided => exact decided
  | keyed used usedToken named isFound rests =>
      obtain ⟨other, asks⟩ := rests.asked
      rw [asked] at asks
      cases asks
      have owner := rests.issued
      rw [IssuedFor] at owner issued
      rw [issued] at owner
      exact absurd (Option.some.inj owner).symm (without answer late used isFound)

end Runs

def keyFallback : Held := .multiKey (some (staticCheck ⟨none, some "studio", none⟩))

-- A key is minted for one broadcast, and checked while it is rotated.
def scopedPublish : List ServiceOp :=
  [.store (.mint ⟨none, some "live/a", none⟩ 100), .store (.advance 0),
    .check (.publish "live" "lvqr_sk_" (some "live/a")), .advance 0 110, .store (.rotate "key" none 120), .advance 0 130]

theorem scoped_publish_admitted :
    ∃ key, IssuedFor InMemoryStreamKeyStore.countedDraws keyFallback scopedPublish "lvqr_sk_" key.id ∧
      WasRecorded InMemoryStreamKeyStore.countedDraws keyFallback scopedPublish key ∧ isExpired key 130 = false ∧
      ∀ scope ∈ key.broadcast, some "live/a" = some scope := by
  have admitted := @publish_admitted InMemoryStreamKeyStore.countedDraws keyFallback
    InMemoryStreamKeyStore.counted_distinct scopedPublish
    ⟨.publish "live" "lvqr_sk_" (some "live/a"), keyFallback,
      some ⟨"key", "lvqr_sk_A", none, some "live/a", 120, none⟩, .allow, 130⟩ List.mem_cons_self "live" "lvqr_sk_"
    (some "live/a") rfl rfl
  rcases admitted with keyed | fallback
  · exact keyed
  · cases fallback.1

-- The index was read before the revocation, the record after it.
def revokedMidway : List ServiceOp := scopedPublish.take 4 ++ .store (.revoke "key") :: [.advance 0 130]

theorem revoked_midway_denied :
    (Machine.run (step InMemoryStreamKeyStore.countedDraws) (start keyFallback) revokedMidway).answers.map Answer.decision =
      [keyFallback.fallback (.publish "live" "lvqr_sk_" (some "live/a"))] := by
  have denied := @revoked_key_stays_out InMemoryStreamKeyStore.countedDraws keyFallback
    InMemoryStreamKeyStore.counted_distinct (scopedPublish.take 4) [.advance 0 130] "key"
    ⟨"key", "lvqr_sk_", none, some "live/a", 100, none⟩ rfl
    ⟨.publish "live" "lvqr_sk_" (some "live/a"), keyFallback, none, .deny "invalid publish key", 130⟩
    List.mem_cons_self "live" "lvqr_sk_" (some "live/a") rfl rfl
  exact congrArg (fun decision => [decision]) denied

end AuthService

end Lvqr.Auth
