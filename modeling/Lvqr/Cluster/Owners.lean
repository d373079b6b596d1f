import Mathlib.Data.Prod.Lex
import Lvqr.Cluster.Lease
import Lvqr.Lib.BigEndian
import Lvqr.Lib.Table
import Lvqr.Lib.Text
import Lvqr.Lib.Utf8

set_option autoImplicit false

-- Who owns a broadcast, and the list of all owners.
namespace Lvqr.Cluster

structure NodeId where
  raw : String
deriving DecidableEq, Repr

structure BroadcastSummary where
  name : String
  owner : NodeId
  expiresAtMs : Nat
deriving DecidableEq, Repr

-- Strings are compared by their bytes.
def textRank (text : String) : List Nat := ByteOrder.rank (Utf8.encode text.toList)

-- The key-values of one node as chitchat shows them: what is deleted is left out. A
-- prefix scan comes in any order.
structure NodeState where
  get : String → Option String
  iterPrefix : String → List (String × String)
  scanned : ∀ front key value, (key, value) ∈ iterPrefix front ↔ front.toList <+: key.toList ∧ get key = some value

-- Every table of key-values is the state of a node.
def NodeState.ofTable (table : Table String String) : NodeState where
  get := table.lookup
  iterPrefix := fun front => (table.inOrder textRank).filter fun entry => front.toList <+: entry.1.toList
  scanned := fun front key value => by
    rw [List.mem_filter, Table.mem_in_order, decide_eq_true_eq, and_comm]

def stripPrefix (front text : String) : Option String := (Text.stripPrefix front.toList text.toList).map String.ofList

def selectWinner (candidates : List Lease) (nowMs : Nat) : Option Lease :=
  candidates.foldl (fun best lease =>
    if lease.expiresAtMs ≤ nowMs then best
    else match best with
      | none => some lease
      | some current =>
          if lease.expiresAtMs > current.expiresAtMs ∨
            (lease.expiresAtMs = current.expiresAtMs ∧ textRank lease.owner > textRank current.owner) then some lease
          else some current) none

-- `decode` reads the JSON of a lease.
section Owners
variable (decode : String → Option Lease)

def findOwner (states : List NodeState) (name : String) (nowMs : Nat) : Option NodeId :=
  let candidates := states.filterMap fun state => (state.get (broadcastKey name)).bind decode
  (selectWinner candidates nowMs).map fun lease => ⟨lease.owner⟩

def listEntry (nowMs : Nat) (winners : Table String Lease) (entry : String × String) : Table String Lease :=
  match stripPrefix broadcastKeyPrefix entry.1 with
  | none => winners
  | some name =>
      match decode entry.2 with
      | none => winners
      | some lease =>
          if lease.expiresAtMs ≤ nowMs then winners
          else match winners.lookup name with
            | none => winners.insert name lease
            | some current =>
                if lease.expiresAtMs > current.expiresAtMs ∨
                  (lease.expiresAtMs = current.expiresAtMs ∧ textRank lease.owner > textRank current.owner) then
                  winners.insert name lease
                else winners

def listWinners (states : List NodeState) (nowMs : Nat) : Table String Lease :=
  states.foldl (fun winners state => (state.iterPrefix broadcastKeyPrefix).foldl (listEntry decode nowMs) winners) ∅

def listOwners (states : List NodeState) (nowMs : Nat) : List BroadcastSummary :=
  ((listWinners decode states nowMs).inOrder textRank).map fun entry => ⟨entry.1, ⟨entry.2.owner⟩, entry.2.expiresAtMs⟩

end Owners

-- The later expiry is preferred, then the greater owner.
def leaseRank (lease : Lease) : ℕ ×ₗ List ℕ := toLex (lease.expiresAtMs, textRank lease.owner)

theorem text_rank_injective : Function.Injective textRank := fun _ _ same =>
  String.toList_inj.mp (Utf8.encode_injective _ _ (ByteOrder.rank_injective same))

theorem lease_rank_injective : Function.Injective leaseRank := by
  rintro ⟨owner, expiresAtMs⟩ ⟨other, expiresToo⟩ same
  obtain ⟨expires, owners⟩ := Prod.mk.inj (toLex.injective same)
  obtain rfl : expiresAtMs = expiresToo := expires
  obtain rfl : owner = other := text_rank_injective owners
  rfl

theorem preferred_iff (lease current : Lease) :
    (lease.expiresAtMs > current.expiresAtMs ∨
      (lease.expiresAtMs = current.expiresAtMs ∧ textRank lease.owner > textRank current.owner)) ↔
      leaseRank current < leaseRank lease := by
  rw [leaseRank, leaseRank, Prod.Lex.toLex_lt_toLex]
  exact or_congr_right (and_congr_left' eq_comm)

theorem strip_prefix_iff (front text rest : String) :
    stripPrefix front text = some rest ↔ text = front ++ rest := by
  rw [stripPrefix, Option.map_eq_some_iff]
  constructor
  · rintro ⟨chars, stripped, rfl⟩
    rw [← String.toList_inj, Text.strip_prefix_some _ _ _ stripped, String.toList_append, String.toList_ofList]
  · rintro rfl
    rw [String.toList_append, Text.strip_prefix_append]
    exact ⟨rest.toList, rfl, String.ofList_toList⟩

def live (nowMs : Nat) (lease : Lease) : Bool := nowMs < lease.expiresAtMs

theorem select_winner_eq (candidates : List Lease) (nowMs : Nat) :
    selectWinner candidates nowMs = (candidates.filter (live nowMs)).argmax leaseRank := by
  induction candidates using List.reverseRecOn with
  | nil => rfl
  | append_singleton candidates lease ih =>
      rw [selectWinner, List.foldl_append, List.foldl_cons, List.foldl_nil, ← selectWinner, ih, List.filter_append]
      by_cases expired : lease.expiresAtMs ≤ nowMs
      · have dead : ¬ live nowMs lease = true := by simpa [live] using expired
        rw [if_pos expired, List.filter_cons_of_neg dead, List.filter_nil, List.append_nil]
      · have alive : live nowMs lease = true := by simpa [live] using expired
        rw [if_neg expired, List.filter_cons_of_pos alive, List.filter_nil, List.argmax_concat]
        cases (candidates.filter (live nowMs)).argmax leaseRank with
        | none => rfl
        | some current =>
            dsimp only
            rw [if_congr (preferred_iff lease current) rfl rfl]

-- The live leases of a name, over all nodes.
def Claims (decode : String → Option Lease) (states : List NodeState) (nowMs : Nat) (name : String) (lease : Lease) : Prop :=
  (∃ state ∈ states, ∃ raw, state.get (broadcastKey name) = some raw ∧ decode raw = some lease) ∧
    live nowMs lease = true

variable (decode : String → Option Lease)

-- What an entry of a scan brings in.
def claimed (nowMs : Nat) (entry : String × String) : Option (String × Lease) :=
  (stripPrefix broadcastKeyPrefix entry.1).bind fun name =>
    ((decode entry.2).filter (live nowMs)).map fun lease => (name, lease)

theorem claimed_iff (nowMs : Nat) (entry : String × String) (name : String) (lease : Lease) :
    claimed decode nowMs entry = some (name, lease) ↔
      entry.1 = broadcastKey name ∧ decode entry.2 = some lease ∧ live nowMs lease = true := by
  rw [claimed, Option.bind_eq_some_iff]
  constructor
  · rintro ⟨found, stripped, rest⟩
    obtain ⟨other, passed, same⟩ := Option.map_eq_some_iff.mp rest
    obtain ⟨rfl, rfl⟩ := Prod.mk.inj same
    obtain ⟨decoded, alive⟩ := Option.filter_eq_some_iff.mp passed
    exact ⟨(strip_prefix_iff _ _ _).mp stripped, decoded, alive⟩
  · rintro ⟨isKey, decoded, alive⟩
    refine ⟨name, (strip_prefix_iff _ _ _).mpr isKey, ?_⟩
    rw [Option.filter_eq_some_iff.mpr ⟨decoded, alive⟩, Option.map_some]

theorem list_entry_eq (nowMs : Nat) (winners : Table String Lease) (entry : String × String) :
    listEntry decode nowMs winners entry =
      (claimed decode nowMs entry).elim winners (Table.keepGreatest leaseRank winners) := by
  rw [listEntry, claimed]
  cases stripPrefix broadcastKeyPrefix entry.1 with
  | none => rfl
  | some name =>
      cases decode entry.2 with
      | none => rfl
      | some lease =>
          by_cases expired : lease.expiresAtMs ≤ nowMs
          · have dead : ¬ live nowMs lease = true := by simpa [live] using expired
            simp only [Option.bind_some, Option.filter_some, if_pos expired, if_neg dead, Option.map_none, Option.elim_none]
          · have alive : live nowMs lease = true := by simpa [live] using expired
            simp only [Option.bind_some, Option.filter_some, if_neg expired, if_pos alive, Option.map_some, Option.elim_some,
              Table.keepGreatest]
            cases winners.lookup name with
            | none => rfl
            | some current => exact if_congr (preferred_iff lease current) rfl rfl

theorem list_entries (nowMs : Nat) (entries : List (String × String)) (winners : Table String Lease) :
    entries.foldl (listEntry decode nowMs) winners =
      (entries.filterMap (claimed decode nowMs)).foldl (Table.keepGreatest leaseRank) winners := by
  induction entries generalizing winners with
  | nil => rfl
  | cons entry entries ih =>
      rw [List.foldl_cons, ih, list_entry_eq]
      cases isClaim : claimed decode nowMs entry with
      | none => rw [List.filterMap_cons_none isClaim, Option.elim_none]
      | some kept => rw [List.filterMap_cons_some isClaim, List.foldl_cons, Option.elim_some]

def scanned (states : List NodeState) : List (String × String) :=
  states.flatMap fun state => state.iterPrefix broadcastKeyPrefix

theorem mem_claimed (states : List NodeState) (nowMs : Nat) (name : String) (lease : Lease) :
    (name, lease) ∈ (scanned states).filterMap (claimed decode nowMs) ↔ Claims decode states nowMs name lease := by
  rw [List.mem_filterMap]
  constructor
  · rintro ⟨⟨key, raw⟩, inside, isClaim⟩
    obtain ⟨isKey, decoded, alive⟩ := (claimed_iff decode nowMs _ name lease).mp isClaim
    obtain ⟨state, member, entry⟩ := List.mem_flatMap.mp inside
    have found := ((state.scanned _ _ _).mp entry).2
    obtain rfl : key = broadcastKey name := isKey
    exact ⟨⟨state, member, raw, found, decoded⟩, alive⟩
  · rintro ⟨⟨state, member, raw, found, decoded⟩, alive⟩
    refine ⟨(broadcastKey name, raw), ?_, (claimed_iff decode nowMs _ name lease).mpr ⟨rfl, decoded, alive⟩⟩
    have front : broadcastKeyPrefix.toList <+: (broadcastKey name).toList := by
      rw [broadcastKey, String.toList_append]
      exact List.prefix_append _ _
    exact List.mem_flatMap.mpr ⟨state, member, (state.scanned _ _ _).mpr ⟨front, found⟩⟩

theorem mem_candidates (states : List NodeState) (nowMs : Nat) (name : String) (lease : Lease) :
    lease ∈ (states.filterMap fun state => (state.get (broadcastKey name)).bind decode).filter (live nowMs) ↔
      Claims decode states nowMs name lease := by
  rw [List.mem_filter, List.mem_filterMap]
  refine and_congr_left fun _ => exists_congr fun state => and_congr_right fun _ => ?_
  exact Option.bind_eq_some_iff

-- The lease that wins a name.
def winner (states : List NodeState) (name : String) (nowMs : Nat) : Option Lease :=
  selectWinner (states.filterMap fun state => (state.get (broadcastKey name)).bind decode) nowMs

theorem winner_iff (states : List NodeState) (name : String) (nowMs : Nat) (lease : Lease) :
    winner decode states name nowMs = some lease ↔ Claims decode states nowMs name lease ∧
      ∀ other, Claims decode states nowMs name other → leaseRank other ≤ leaseRank lease := by
  rw [winner, select_winner_eq, Table.argmax_iff leaseRank lease_rank_injective]
  simp only [mem_candidates]

theorem listed_winner (states : List NodeState) (nowMs : Nat) (name : String) :
    (listWinners decode states nowMs).lookup name = winner decode states name nowMs := by
  have folded : listWinners decode states nowMs =
      ((scanned states).filterMap (claimed decode nowMs)).foldl (Table.keepGreatest leaseRank) ∅ := by
    rw [← list_entries, scanned, List.foldl_flatMap, listWinners]
  rw [folded, Table.lookup_keep_greatest, winner, select_winner_eq]
  refine Table.argmax_ext leaseRank lease_rank_injective _ _ fun lease => ?_
  rw [Table.mem_values_of, mem_claimed, mem_candidates]

theorem mem_list_owners (states : List NodeState) (nowMs : Nat) (summary : BroadcastSummary) :
    summary ∈ listOwners decode states nowMs ↔
      ∃ lease, winner decode states summary.name nowMs = some lease ∧ summary.owner = ⟨lease.owner⟩ ∧
        summary.expiresAtMs = lease.expiresAtMs := by
  rw [listOwners, List.mem_map]
  constructor
  · rintro ⟨⟨name, lease⟩, inside, rfl⟩
    have found := (Table.mem_in_order textRank _ _ _).mp inside
    rw [listed_winner] at found
    exact ⟨lease, found, rfl, rfl⟩
  · rintro ⟨lease, found, owner, expires⟩
    rw [← listed_winner] at found
    refine ⟨(summary.name, lease), (Table.mem_in_order textRank _ _ _).mpr found, ?_⟩
    rw [← owner, ← expires]

theorem winner_perm (states others : List NodeState) (nowMs : Nat) (name : String)
    (same : (states.map NodeState.get).Perm (others.map NodeState.get)) :
    winner decode others name nowMs = winner decode states name nowMs := by
  have claims : ∀ lease, Claims decode others nowMs name lease ↔ Claims decode states nowMs name lease := by
    have held : ∀ lease (nodes : List NodeState),
        (∃ state ∈ nodes, ∃ raw, state.get (broadcastKey name) = some raw ∧ decode raw = some lease) ↔
          ∃ get ∈ nodes.map NodeState.get, ∃ raw, get (broadcastKey name) = some raw ∧ decode raw = some lease := by
      intro lease nodes
      simp only [List.mem_map, exists_exists_and_eq_and]
    intro lease
    rw [Claims, Claims, held, held]
    simp only [same.mem_iff]
  ext lease
  rw [winner_iff, winner_iff]
  simp only [claims]

-- What the lookup of one owner and the list of all are to be to each other.
structure OwnersAgree (states : List NodeState) (nowMs : Nat) : Prop where
  listed : ∀ name, (∃ summary ∈ listOwners decode states nowMs, summary.name = name) ↔
    (findOwner decode states name nowMs).isSome
  owner : ∀ summary ∈ listOwners decode states nowMs, findOwner decode states summary.name nowMs = some summary.owner
  once : ((listOwners decode states nowMs).map BroadcastSummary.name).Nodup
  unordered : ∀ others : List NodeState, (states.map NodeState.get).Perm (others.map NodeState.get) →
    listOwners decode others nowMs = listOwners decode states nowMs ∧
      ∀ name, findOwner decode others name nowMs = findOwner decode states name nowMs

theorem find_owner_eq (states : List NodeState) (name : String) (nowMs : Nat) :
    findOwner decode states name nowMs = (winner decode states name nowMs).map fun lease => ⟨lease.owner⟩ := rfl

theorem owners_agree (states : List NodeState) (nowMs : Nat) : OwnersAgree decode states nowMs where
  listed := by
    intro name
    rw [find_owner_eq, Option.isSome_map]
    constructor
    · rintro ⟨summary, inside, rfl⟩
      obtain ⟨lease, won, -, -⟩ := (mem_list_owners decode states nowMs summary).mp inside
      rw [won]
      rfl
    · intro found
      obtain ⟨lease, won⟩ := Option.isSome_iff_exists.mp found
      exact ⟨⟨name, ⟨lease.owner⟩, lease.expiresAtMs⟩,
        (mem_list_owners decode states nowMs _).mpr ⟨lease, won, rfl, rfl⟩, rfl⟩
  owner := by
    intro summary inside
    obtain ⟨lease, won, owner, -⟩ := (mem_list_owners decode states nowMs summary).mp inside
    rw [find_owner_eq, won, owner]
    rfl
  once := by
    rw [listOwners, List.map_map]
    refine List.pairwise_map.mpr ?_
    exact (Table.in_order_keys textRank _).imp fun differ => differ
  unordered := by
    intro others same
    constructor
    · rw [listOwners, listOwners]
      refine congrArg _ (Table.in_order_ext textRank text_rank_injective _ _ fun name => ?_)
      rw [listed_winner, listed_winner, winner_perm decode states others nowMs name same]
    · intro name
      rw [find_owner_eq, find_owner_eq, winner_perm decode states others nowMs name same]

-- Of two claims that expire together the greater owner's counts, in either order.
example :
    let claim (owner : String) : NodeState := .ofTable ((∅ : Table String String).insert (broadcastKey "live") owner)
    findOwner (fun raw => some ⟨raw, 9⟩) [claim "node-c", claim "node-b"] "live" 8 = some ⟨"node-c"⟩ ∧
      findOwner (fun raw => some ⟨raw, 9⟩) [claim "node-b", claim "node-c"] "live" 8 = some ⟨"node-c"⟩ := by
  decide

end Lvqr.Cluster
