import Lvqr.Cluster.Owners
import Lvqr.Lib.Gossip

set_option autoImplicit false

-- The cluster-wide config: each node writes its own entries, gossip carries them, and
-- readers take the last write over all nodes.
namespace Lvqr.Cluster.Config

def configKeyPrefix : String := "config."

def configKey (key : String) : String := configKeyPrefix ++ key

structure ConfigValue where
  value : String
  tsMs : UInt64
deriving DecidableEq, Repr

structure ConfigEntry where
  key : String
  value : String
  tsMs : UInt64
deriving DecidableEq, Repr

-- The JSON of an entry.
structure Json where
  encode : ConfigValue → String
  decode : String → Option ConfigValue
  decodeEncode : ∀ entry, decode (encode entry) = some entry

def selectWinner (candidates : List ConfigValue) : Option ConfigValue :=
  candidates.foldl (fun best entry =>
    match best with
    | none => some entry
    | some current =>
        if entry.tsMs > current.tsMs ∨ (entry.tsMs = current.tsMs ∧ textRank entry.value > textRank current.value) then
          some entry
        else some current) none

section Readers

variable (json : Json)

-- What `get` selects from, and what it selects.
def candidates (states : List NodeState) (key : String) : List ConfigValue :=
  states.filterMap fun state => (state.get (configKey key)).bind json.decode

def winner (states : List NodeState) (key : String) : Option ConfigValue := selectWinner (candidates json states key)

def get (states : List NodeState) (key : String) : Option String := (winner json states key).map ConfigValue.value

def listEntry (winners : Table String ConfigValue) (entry : String × String) : Table String ConfigValue :=
  match stripPrefix configKeyPrefix entry.1 with
  | none => winners
  | some key =>
      match json.decode entry.2 with
      | none => winners
      | some decoded =>
          match winners.lookup key with
          | none => winners.insert key decoded
          | some current =>
              if decoded.tsMs > current.tsMs ∨
                (decoded.tsMs = current.tsMs ∧ textRank decoded.value > textRank current.value) then
                winners.insert key decoded
              else winners

def listWinners (states : List NodeState) : Table String ConfigValue :=
  states.foldl (fun winners state => (state.iterPrefix configKeyPrefix).foldl (listEntry json) winners) ∅

def list (states : List NodeState) : List ConfigEntry :=
  ((listWinners json states).inOrder textRank).map fun entry => ⟨entry.1, entry.2.value, entry.2.tsMs⟩

end Readers

-- The later stamp is preferred, then the greater value.
def valueRank (entry : ConfigValue) : ℕ ×ₗ List ℕ := toLex (entry.tsMs.toNat, textRank entry.value)

theorem value_rank_injective : Function.Injective valueRank := by
  rintro ⟨value, tsMs⟩ ⟨other, tsToo⟩ same
  obtain ⟨stamps, values⟩ := Prod.mk.inj (toLex.injective same)
  obtain rfl : tsMs = tsToo := UInt64.toNat_inj.mp stamps
  obtain rfl : value = other := text_rank_injective values
  rfl

theorem preferred_iff (entry current : ConfigValue) :
    (entry.tsMs > current.tsMs ∨ (entry.tsMs = current.tsMs ∧ textRank entry.value > textRank current.value)) ↔
      valueRank current < valueRank entry := by
  rw [valueRank, valueRank, Prod.Lex.toLex_lt_toLex, gt_iff_lt, UInt64.lt_iff_toNat_lt, ← UInt64.toNat_inj]
  exact or_congr_right (and_congr_left' eq_comm)

theorem select_winner_eq (candidates : List ConfigValue) : selectWinner candidates = candidates.argmax valueRank := by
  induction candidates using List.reverseRecOn with
  | nil => rfl
  | append_singleton candidates entry ih =>
      rw [selectWinner, List.foldl_append, List.foldl_cons, List.foldl_nil, ← selectWinner, ih, List.argmax_concat]
      cases candidates.argmax valueRank with
      | none => rfl
      | some current => exact if_congr (preferred_iff entry current) rfl rfl

section Listing

variable (json : Json)

-- What an entry of a scan brings in.
def decoded (entry : String × String) : Option (String × ConfigValue) :=
  (stripPrefix configKeyPrefix entry.1).bind fun key => (json.decode entry.2).map fun value => (key, value)

theorem decoded_iff (entry : String × String) (key : String) (value : ConfigValue) :
    decoded json entry = some (key, value) ↔ entry.1 = configKey key ∧ json.decode entry.2 = some value := by
  rw [decoded, Option.bind_eq_some_iff]
  constructor
  · intro ⟨found, stripped, rest⟩
    obtain ⟨other, read, same⟩ := Option.map_eq_some_iff.mp rest
    obtain ⟨rfl, rfl⟩ := Prod.mk.inj same
    exact ⟨(strip_prefix_iff _ _ _).mp stripped, read⟩
  · intro ⟨isKey, read⟩
    exact ⟨key, (strip_prefix_iff _ _ _).mpr isKey, by rw [read, Option.map_some]⟩

theorem list_entry_eq (winners : Table String ConfigValue) (entry : String × String) :
    listEntry json winners entry = (decoded json entry).elim winners (Table.keepGreatest valueRank winners) := by
  rw [listEntry, decoded]
  cases stripPrefix configKeyPrefix entry.1 with
  | none => rfl
  | some key =>
      cases json.decode entry.2 with
      | none => rfl
      | some value =>
          simp only [Option.bind_some, Option.map_some, Option.elim_some, Table.keepGreatest]
          cases winners.lookup key with
          | none => rfl
          | some current => exact if_congr (preferred_iff value current) rfl rfl

theorem list_entries (entries : List (String × String)) (winners : Table String ConfigValue) :
    entries.foldl (listEntry json) winners =
      (entries.filterMap (decoded json)).foldl (Table.keepGreatest valueRank) winners := by
  induction entries generalizing winners with
  | nil => rfl
  | cons entry entries ih =>
      rw [List.foldl_cons, ih, list_entry_eq]
      cases isEntry : decoded json entry with
      | none => rw [List.filterMap_cons_none isEntry, Option.elim_none]
      | some kept => rw [List.filterMap_cons_some isEntry, List.foldl_cons, Option.elim_some]

theorem mem_candidates (states : List NodeState) (key : String) (value : ConfigValue) :
    value ∈ candidates json states key ↔
      ∃ state ∈ states, ∃ raw, state.get (configKey key) = some raw ∧ json.decode raw = some value := by
  rw [candidates, List.mem_filterMap]
  simp only [Option.bind_eq_some_iff]

theorem mem_decoded (states : List NodeState) (key : String) (value : ConfigValue) :
    (key, value) ∈ (states.flatMap fun state => state.iterPrefix configKeyPrefix).filterMap (decoded json) ↔
      value ∈ candidates json states key := by
  rw [List.mem_filterMap, mem_candidates]
  constructor
  · intro ⟨⟨one, raw⟩, inside, isEntry⟩
    obtain ⟨isKey, read⟩ := (decoded_iff json _ key value).mp isEntry
    obtain ⟨state, member, entry⟩ := List.mem_flatMap.mp inside
    have found := ((state.scanned _ _ _).mp entry).2
    obtain rfl : one = configKey key := isKey
    exact ⟨state, member, raw, found, read⟩
  · intro ⟨state, member, raw, found, read⟩
    refine ⟨(configKey key, raw), ?_, (decoded_iff json _ key value).mpr ⟨rfl, read⟩⟩
    have front : configKeyPrefix.toList <+: (configKey key).toList := by
      rw [configKey, String.toList_append]
      exact List.prefix_append _ _
    exact List.mem_flatMap.mpr ⟨state, member, (state.scanned _ _ _).mpr ⟨front, found⟩⟩

theorem listed_winner (states : List NodeState) (key : String) :
    (listWinners json states).lookup key = winner json states key := by
  have folded : listWinners json states = ((states.flatMap fun state => state.iterPrefix configKeyPrefix).filterMap
      (decoded json)).foldl (Table.keepGreatest valueRank) ∅ := by
    rw [← list_entries, List.foldl_flatMap, listWinners]
  rw [folded, Table.lookup_keep_greatest, winner, select_winner_eq]
  refine Table.argmax_ext valueRank value_rank_injective _ _ fun value => ?_
  rw [Table.mem_values_of, mem_decoded]

theorem mem_list (states : List NodeState) (entry : ConfigEntry) :
    entry ∈ list json states ↔ winner json states entry.key = some ⟨entry.value, entry.tsMs⟩ := by
  rw [list, List.mem_map, ← listed_winner]
  constructor
  · rintro ⟨⟨key, value⟩, inside, rfl⟩
    exact (Table.mem_in_order textRank _ _ _).mp inside
  · intro found
    exact ⟨(entry.key, ⟨entry.value, entry.tsMs⟩), (Table.mem_in_order textRank _ _ _).mpr found, rfl⟩

end Listing

-- Entries as written where the value has no control characters.
def quoteChar (char : Char) : List Char := if char = '"' ∨ char = '\\' then ['\\', char] else [char]

def unquote : List Char → Option (List Char × List Char)
  | [] => none
  | char :: rest =>
      if char = '"' then some ([], rest)
      else if char = '\\' then
        match rest with
        | [] => none
        | quoted :: rest => (unquote rest).map fun read => (quoted :: read.1, read.2)
      else (unquote rest).map fun read => (char :: read.1, read.2)

theorem unquote_quoted (value rest : List Char) :
    unquote (value.flatMap quoteChar ++ '"' :: rest) = some (value, rest) := by
  induction value with
  | nil =>
      rw [List.flatMap_nil, List.nil_append, unquote.eq_def]
      rfl
  | cons char value ih =>
      rw [List.flatMap_cons, List.append_assoc, quoteChar]
      by_cases special : char = '"' ∨ char = '\\'
      · rw [if_pos special, List.cons_append, unquote.eq_def]
        dsimp only
        rw [if_neg (by decide), if_pos rfl]
        dsimp only [List.cons_append, List.nil_append]
        rw [ih, Option.map_some]
      · rw [if_neg special, List.cons_append, unquote.eq_def]
        dsimp only
        rw [if_neg fun quote => special (.inl quote),
          if_neg fun slash => special (.inr slash), List.nil_append, ih, Option.map_some]

def plainFront : List Char := "\x7b\"value\":\"".toList

def plainStamp : List Char := ",\"ts_ms\":".toList

def plainJson : Json where
  encode := fun entry => String.ofList (plainFront ++ (entry.value.toList.flatMap quoteChar ++
    '"' :: (plainStamp ++ ((toString entry.tsMs.toNat).toList ++ ['}']))))
  decode := fun raw => (unquote (raw.toList.drop plainFront.length)).bind fun read =>
    (Text.unsignedValue (read.2.drop plainStamp.length).dropLast).map fun stamp =>
      ⟨String.ofList read.1, UInt64.ofNat stamp⟩
  decodeEncode := by
    intro entry
    rw [String.toList_ofList, List.drop_left, unquote_quoted, Option.bind_some]
    dsimp only
    rw [List.drop_left, List.dropLast_concat, Text.unsigned_value_nat, Option.map_some, String.ofList_toList,
      UInt64.ofNat_toNat]

example : plainJson.encode ⟨"on", 5⟩ = "\x7b\"value\":\"on\",\"ts_ms\":5\x7d" := by decide

-- Keys of other parts of the cluster state, such as leases and endpoints.
structure ForeignKey where
  key : String
  foreign : ¬ configKeyPrefix.toList <+: key.toList

inductive ConfigOp (Node : Type) where
  | set (node : Node) (key value : String) (now : UInt64)
  | advertise (node : Node) (key : ForeignKey) (raw : String)
  | send (node owner : Node) (key : String)
  | receive (node : Node) (index : Nat)

section Cluster

variable {Node : Type} [DecidableEq Node] (json : Json)

def gossipOp : ConfigOp Node → Gossip.Op Node String String
  | .set node key value now => .set node (configKey key) (json.encode ⟨value, now⟩)
  | .advertise node key raw => .set node key.key raw
  | .send node owner key => .send node owner key
  | .receive node index => .receive node index

def run (ops : List (ConfigOp Node)) : Gossip Node String String :=
  Machine.run Gossip.step Gossip.start (ops.map (gossipOp json))

-- What a node has of another's state, and of all nodes it knows.
def stateOf (gossip : Gossip Node String String) (node owner : Node) : NodeState where
  get := fun key => (gossip.copy node owner key).map Versioned.value
  iterPrefix := fun front =>
    (((gossip.copies node owner).inOrder textRank).filter fun entry => front.toList <+: entry.1.toList).map
      fun entry => (entry.1, entry.2.value)
  scanned := by
    intro front key value
    rw [List.mem_map, Gossip.copy, Option.map_eq_some_iff]
    constructor
    · rintro ⟨⟨one, entry⟩, inside, same⟩
      obtain ⟨rfl, rfl⟩ := Prod.mk.inj same
      obtain ⟨member, isFront⟩ := List.mem_filter.mp inside
      exact ⟨of_decide_eq_true isFront, entry, (Table.mem_in_order textRank _ _ _).mp member, rfl⟩
    · rintro ⟨isFront, entry, found, rfl⟩
      have member := (Table.mem_in_order textRank _ _ _).mpr found
      exact ⟨(key, entry), List.mem_filter.mpr ⟨member, decide_eq_true isFront⟩, rfl⟩

def statesAt (gossip : Gossip Node String String) (nodes : List Node) (node : Node) : List NodeState :=
  nodes.map (stateOf gossip node)

def setValue (owner : Node) (key : String) : ConfigOp Node → Option ConfigValue
  | .set node one value now => if node = owner ∧ one = key then some ⟨value, now⟩ else none
  | .advertise _ _ _ | .send _ _ _ | .receive _ _ => none

-- What a node set the key to, one time after another.
def sets (owner : Node) (key : String) (ops : List (ConfigOp Node)) : List ConfigValue := ops.filterMap (setValue owner key)

theorem config_key_injective (first second : String) : configKey first = configKey second ↔ first = second := by
  rw [← String.toList_inj, ← String.toList_inj, configKey, configKey, String.toList_append, String.toList_append,
    List.append_cancel_left_eq]

theorem foreign_key_ne (key : ForeignKey) (one : String) : key.key ≠ configKey one := by
  intro same
  refine key.foreign ?_
  rw [same, configKey, String.toList_append]
  exact List.prefix_append _ _

theorem gossip_set_iff (op : ConfigOp Node) (owner : Node) (key raw : String) :
    gossipOp json op = .set owner (configKey key) raw ↔ ∃ value, setValue owner key op = some value ∧ raw = json.encode value := by
  cases op with
  | set node one value now =>
      rw [gossipOp, setValue]
      simp only [Gossip.Op.set.injEq, config_key_injective, Option.ite_none_right_eq_some]
      constructor
      · rintro ⟨rfl, rfl, rfl⟩
        exact ⟨_, ⟨⟨rfl, rfl⟩, rfl⟩, rfl⟩
      · rintro ⟨_, ⟨⟨rfl, rfl⟩, same⟩, rfl⟩
        cases same
        exact ⟨rfl, rfl, rfl⟩
  | advertise node other raw =>
      rw [gossipOp, setValue]
      simp [foreign_key_ne]
  | send node source one => simp [gossipOp, setValue]
  | receive node index => simp [gossipOp, setValue]

theorem run_snoc (ops : List (ConfigOp Node)) (op : ConfigOp Node) :
    run json (ops ++ [op]) = (run json ops).step (gossipOp json op) := by
  rw [run, List.map_append, Machine.run_append]
  rfl

theorem run_sound (ops : List (ConfigOp Node)) : (run json ops).Sound := Gossip.run_sound _

-- An owner's own entry is what it set last.
theorem own_copy (ops : List (ConfigOp Node)) (owner : Node) (key : String) :
    ((run json ops).copy owner owner (configKey key)).map Versioned.value = (sets owner key ops).getLast?.map json.encode := by
  induction ops using List.reverseRecOn with
  | nil => rfl
  | append_singleton ops op ih =>
      rw [run_snoc, sets, List.filterMap_append]
      rcases Gossip.step_own _ (run_sound json ops) (gossipOp json op) owner (configKey key) with
        ⟨raw, isSet, own⟩ | ⟨notSet, same⟩
      · obtain ⟨value, isValue, rfl⟩ := (gossip_set_iff json op owner key raw).mp isSet
        rw [own, List.filterMap_cons_some isValue, List.filterMap_nil, List.getLast?_concat]
        rfl
      · have noValue : setValue owner key op = none := by
          cases isValue : setValue owner key op with
          | none => rfl
          | some value => exact absurd ((gossip_set_iff json op owner key _).mpr ⟨value, isValue, rfl⟩) (notSet _)
        rw [same, ih, List.filterMap_cons_none noValue, List.filterMap_nil, List.append_nil, sets]

-- Whatever is held under a config key can be read.
theorem held_decodes (ops : List (ConfigOp Node)) (owner : Node) (key : String) (entry : Versioned String)
    (holds : (run json ops).Holds owner (configKey key) entry) : ∃ value, entry.value = json.encode value := by
  induction ops using List.reverseRecOn with
  | nil => exact absurd holds (Gossip.start_holds _ _ _)
  | append_singleton ops op ih =>
      rw [run_snoc] at holds
      rcases Gossip.step_holds _ _ _ _ _ holds with earlier | ⟨isSet, _⟩
      · exact ih earlier
      · obtain ⟨value, _, same⟩ := (gossip_set_iff json op owner key _).mp isSet
        exact ⟨value, same⟩

-- At some time the node had the entry that is the owner's in the end.
def HasReceived (ops : List (ConfigOp Node)) (node owner : Node) (key : String) : Prop :=
  ∃ seen, seen <+: ops ∧
    (run json seen).copy node owner (configKey key) = (run json ops).copy owner owner (configKey key)

theorem received_copy (ops : List (ConfigOp Node)) (node owner : Node) (key : String)
    (received : HasReceived json ops node owner key) :
    (run json ops).copy node owner (configKey key) = (run json ops).copy owner owner (configKey key) := by
  obtain ⟨seen, ⟨more, rfl⟩, same⟩ := received
  cases own : (run json (seen ++ more)).copy owner owner (configKey key) with
  | none =>
      cases copied : (run json (seen ++ more)).copy node owner (configKey key) with
      | none => rfl
      | some entry =>
          obtain ⟨other, isOwn, _⟩ := (run_sound json (seen ++ more)).ahead _ _ _ (.inl ⟨node, copied⟩)
          rw [own] at isOwn
          cases isOwn
  | some entry =>
      rw [own] at same
      have split : run json (seen ++ more) = Machine.run Gossip.step (run json seen) (more.map (gossipOp json)) := by
        rw [run, List.map_append, Machine.run_append]
        rfl
      rw [split] at own ⊢
      exact Gossip.run_stays _ (run_sound json seen) _ _ _ _ _ same own

-- However the packets went: a node that has had each owner's last set of a key reads
-- the last of them all, and so does every such node.
theorem config_converges (ops : List (ConfigOp Node)) (nodes : List Node) (node : Node) (key : String)
    (received : ∀ owner ∈ nodes, HasReceived json ops node owner key) :
    let last := selectWinner (nodes.filterMap fun owner => (sets owner key ops).getLast?)
    get json (statesAt (run json ops) nodes node) key = last.map ConfigValue.value ∧
      ∀ entry, entry.key = key →
        (entry ∈ list json (statesAt (run json ops) nodes node) ↔ last = some ⟨entry.value, entry.tsMs⟩) := by
  intro last
  have won : winner json (statesAt (run json ops) nodes node) key = last := by
    rw [winner, candidates, statesAt, List.filterMap_map]
    refine congrArg selectWinner (List.filterMap_congr fun owner member => ?_)
    show (((run json ops).copy node owner (configKey key)).map Versioned.value).bind json.decode = _
    rw [received_copy json ops node owner key (received owner member), own_copy]
    cases (sets owner key ops).getLast? with
    | none => rfl
    | some value => exact json.decodeEncode value
  refine ⟨by rw [get, won], fun entry isKey => ?_⟩
  rw [mem_list, isKey, won]

-- Two nodes set a flag, and the second one's entry gets to the first.
def flagOps : List (ConfigOp Bool) :=
  [.set false "hls" "on" 5, .set true "hls" "off" 7, .send true true (configKey "hls"), .receive false 0]

theorem flag_converges :
    get plainJson (statesAt (run plainJson flagOps) [false, true] false) "hls" = some "off" := by
  have received : ∀ owner ∈ [false, true], HasReceived plainJson flagOps false owner "hls" := by
    intro owner _
    cases owner with
    | false => exact ⟨flagOps, List.prefix_rfl, rfl⟩
    | true => exact ⟨flagOps, List.prefix_rfl, by decide +kernel⟩
  exact (config_converges plainJson flagOps [false, true] false "hls" received).1

def stamp (raw : String) : Nat := (json.decode raw).elim 0 fun entry => entry.tsMs.toNat

theorem stamp_encode (value : ConfigValue) : stamp json (json.encode value) = value.tsMs.toNat := by
  rw [stamp, json.decodeEncode, Option.elim_some]

-- No clock goes back between two sets of the key on its node.
def ClockKeeps (key : String) (ops : List (ConfigOp Node)) : Prop :=
  ∀ owner, (sets owner key ops).Pairwise fun earlier later => earlier.tsMs ≤ later.tsMs

theorem clock_rises (key : String) (ops : List (ConfigOp Node)) (keeps : ClockKeeps key ops) :
    Machine.AllSteps (Gossip.Rises (stamp json) (configKey key)) Gossip.step Gossip.start (ops.map (gossipOp json)) := by
  induction ops using List.reverseRecOn with
  | nil => trivial
  | append_singleton ops op ih =>
      have before : ClockKeeps key ops := by
        intro owner
        have whole := keeps owner
        rw [sets, List.filterMap_append] at whole
        exact (List.pairwise_append.mp whole).1
      rw [List.map_append, Machine.all_steps_append]
      refine ⟨ih before, ?_, trivial⟩
      cases op with
      | set node one value now =>
          intro same own copied
          obtain rfl := (config_key_injective one key).mp same
          have last := own_copy json ops node one
          have isOwn : (run json ops).copy node node (configKey one) = some own := copied
          rw [isOwn, Option.map_some] at last
          obtain ⟨earlier, isLast, isEarlier⟩ := Option.map_eq_some_iff.mp last.symm
          have whole := keeps node
          rw [sets, List.filterMap_append] at whole
          have kept := (List.pairwise_append.mp whole).2.2 earlier (List.mem_of_getLast? isLast) ⟨value, now⟩
            (by simp [setValue])
          rw [← isEarlier, stamp_encode, stamp_encode]
          exact UInt64.le_iff_toNat_le.mp kept
      | advertise node other raw => exact fun same => absurd same (foreign_key_ne other key)
      | send node owner one => trivial
      | receive node index => trivial

theorem winner_some_iff (states : List NodeState) (key : String) (value : ConfigValue) :
    winner json states key = some value ↔ value ∈ candidates json states key ∧
      ∀ other ∈ candidates json states key, valueRank other ≤ valueRank value := by
  rw [winner, select_winner_eq]
  exact Table.argmax_iff valueRank value_rank_injective _ _

-- Where there is a candidate there is a winner, and none has a later stamp.
theorem winner_latest (states : List NodeState) (key : String) (value : ConfigValue)
    (isCandidate : value ∈ candidates json states key) :
    ∃ last, winner json states key = some last ∧ value.tsMs ≤ last.tsMs := by
  cases won : winner json states key with
  | none =>
      rw [winner, select_winner_eq] at won
      rw [List.argmax_eq_none.mp won] at isCandidate
      cases isCandidate
  | some last =>
      have above := ((winner_some_iff json states key last).mp won).2 value isCandidate
      exact ⟨last, rfl, UInt64.le_iff_toNat_le.mpr (Prod.Lex.monotone_fst _ _ above)⟩

-- No node reads a value that was set before the one it has read: entries neither go
-- back nor away, in whatever order packets come.
theorem reads_never_go_back (before more : List (ConfigOp Node)) (nodes : List Node) (node : Node) (key : String)
    (keeps : ClockKeeps key (before ++ more)) :
    ∀ entry ∈ list json (statesAt (run json before) nodes node), entry.key = key →
      ∃ next ∈ list json (statesAt (run json (before ++ more)) nodes node),
        next.key = key ∧ entry.tsMs ≤ next.tsMs := by
  intro ⟨one, value, tsMs⟩ listed same
  obtain rfl : key = one := same.symm
  have won := (mem_list json _ _).mp listed
  obtain ⟨isCandidate, _⟩ := (winner_some_iff json _ _ _).mp won
  obtain ⟨state, member, raw, found, read⟩ := (mem_candidates json _ _ _).mp isCandidate
  obtain ⟨owner, known, rfl⟩ := List.mem_map.mp member
  obtain ⟨held, copied, rfl⟩ := Option.map_eq_some_iff.mp found
  have rises := clock_rises json key (before ++ more) keeps
  rw [List.map_append, Machine.all_steps_append] at rises
  obtain ⟨later, moved, above⟩ := Gossip.run_rises (stamp json) (configKey key) _ _ (run_sound json before)
    (Gossip.run_in_order (stamp json) (configKey key) _ rises.1) rises.2 node owner held copied
  have after : (run json (before ++ more)).copy node owner (configKey key) = some later := by
    rw [run, List.map_append, Machine.run_append]
    exact moved
  obtain ⟨next, isNext⟩ := held_decodes json (before ++ more) owner key later (.inl ⟨node, after⟩)
  have stamped : tsMs ≤ next.tsMs := by
    rw [isNext, stamp_encode, stamp, read, Option.elim_some] at above
    exact UInt64.le_iff_toNat_le.mpr above
  have candidate : next ∈ candidates json (statesAt (run json (before ++ more)) nodes node) key := by
    refine (mem_candidates json _ _ _).mpr ⟨_, List.mem_map_of_mem known, later.value, ?_, ?_⟩
    · show ((run json (before ++ more)).copy node owner (configKey key)).map Versioned.value = some later.value
      rw [after, Option.map_some]
    · rw [isNext]
      exact json.decodeEncode next
  obtain ⟨last, lastWon, latest⟩ := winner_latest json _ _ _ candidate
  exact ⟨⟨key, last.value, last.tsMs⟩, (mem_list json _ _).mpr lastWon, rfl, UInt64.le_trans stamped latest⟩

theorem flag_stays_set : ∃ next ∈ list plainJson (statesAt (run plainJson flagOps) [false, true] false),
    next.key = "hls" ∧ 5 ≤ next.tsMs := by
  have keeps : ClockKeeps "hls" ([.set false "hls" "on" 5] ++ flagOps.tail) := by
    intro owner
    cases owner with
    | false => exact List.pairwise_singleton _ _
    | true => exact List.pairwise_singleton _ _
  have listed : ⟨"hls", "on", 5⟩ ∈ list plainJson (statesAt (run plainJson [.set false "hls" "on" 5]) [false, true] false) := by
    decide +kernel
  exact reads_never_go_back plainJson [.set false "hls" "on" 5] flagOps.tail [false, true] false "hls" keeps _ listed rfl

end Cluster

end Lvqr.Cluster.Config
