import Mathlib.Data.List.AList
import Mathlib.Data.List.MinMax
import Mathlib.Data.List.Sort

set_option autoImplicit false

-- A hash map from keys to values. The order of its entries carries no meaning;
-- where an iteration order matters it is a parameter of the operation.
abbrev Table (Key Value : Type) := AList fun _ : Key => Value

namespace Table

variable {Key Value : Type} [DecidableEq Key]

def modify (key : Key) (change : Value → Value) (table : Table Key Value) : Table Key Value :=
  match table.lookup key with
  | none => table
  | some value => table.insert key (change value)

def retain (keep : Key → Bool) (table : Table Key Value) : Table Key Value :=
  ⟨table.entries.filter fun entry => keep entry.1, table.nodupKeys.sublist List.filter_sublist⟩

theorem lookup_insert_eq (table : Table Key Value) (key other : Key) (value : Value) :
    (table.insert key value).lookup other = if other = key then some value else table.lookup other := by
  by_cases same : other = key
  · subst same
    rw [if_pos rfl, AList.lookup_insert]
  · rw [if_neg same, AList.lookup_insert_ne same]

theorem mem_of_lookup {table : Table Key Value} {key : Key} {value : Value} (found : table.lookup key = some value) :
    key ∈ table :=
  AList.lookup_isSome.mp (found ▸ rfl)

theorem lookup_of_mem {table : Table Key Value} {key : Key} (present : key ∈ table) :
    ∃ value, table.lookup key = some value :=
  Option.isSome_iff_exists.mp (AList.lookup_isSome.mpr present)

theorem lookup_erase_eq (table : Table Key Value) (key other : Key) :
    (table.erase key).lookup other = if other = key then none else table.lookup other := by
  by_cases same : other = key
  · subst same
    rw [if_pos rfl, AList.lookup_erase]
  · rw [if_neg same, AList.lookup_erase_ne same]

-- Where an entry found behind an insertion or a removal was before it.
theorem insert_cases {table : Table Key Value} {key other : Key} {value found : Value}
    (here : (table.insert key value).lookup other = some found) :
    other = key ∧ found = value ∨ other ≠ key ∧ table.lookup other = some found := by
  rw [lookup_insert_eq] at here
  by_cases same : other = key
  · rw [if_pos same] at here
    exact .inl ⟨same, (Option.some.inj here).symm⟩
  · rw [if_neg same] at here
    exact .inr ⟨same, here⟩

theorem erase_cases {table : Table Key Value} {key other : Key} {found : Value}
    (here : (table.erase key).lookup other = some found) : other ≠ key ∧ table.lookup other = some found := by
  rw [lookup_erase_eq] at here
  by_cases same : other = key
  · rw [if_pos same] at here
    cases here
  · rw [if_neg same] at here
    exact ⟨same, here⟩

theorem lookup_modify (table : Table Key Value) (key other : Key) (change : Value → Value) :
    (modify key change table).lookup other =
      if other = key then (table.lookup key).map change else table.lookup other := by
  rw [modify]
  cases found : table.lookup key with
  | none =>
      by_cases same : other = key
      · rw [if_pos same, same, found, Option.map_none]
      · rw [if_neg same]
  | some value => rw [lookup_insert_eq, Option.map_some]

theorem dlookup_filter (entries : List (Sigma fun _ : Key => Value)) (keep : Key → Bool) (key : Key) :
    (entries.filter fun entry => keep entry.1).dlookup key = if keep key then entries.dlookup key else none := by
  induction entries with
  | nil => simp
  | cons entry entries ih =>
      obtain ⟨first, value⟩ := entry
      by_cases same : key = first
      · subst same
        by_cases kept : keep key = true
        · simp [kept]
        · rw [if_neg kept] at ih
          simp [kept, ih]
      · by_cases kept : keep first = true
        · simp [kept, same, ih]
        · simp [kept, same, ih]

theorem lookup_retain (keep : Key → Bool) (table : Table Key Value) (key : Key) :
    (retain keep table).lookup key = if keep key then table.lookup key else none :=
  dlookup_filter table.entries keep key

end Table

-- Tables read in the order of their keys. `rank` maps the keys to what they are
-- compared by.
namespace Table

variable {Key Value Rank : Type} [LinearOrder Rank] (rank : Key → Rank)

def inOrder (table : Table Key Value) : List (Key × Value) :=
  (table.entries.map fun entry => (entry.1, entry.2)).insertionSort fun first second => rank first.1 ≤ rank second.1

def Ascending (entries : List (Key × Value)) : Prop := entries.Pairwise fun first second => rank first.1 < rank second.1

-- Its entries and their order say all about an ascending list.
theorem ascending_ext (first second : List (Key × Value)) (ascending : Ascending rank first)
    (ascendingToo : Ascending rank second) (same : ∀ entry, entry ∈ first ↔ entry ∈ second) : first = second := by
  have distinct : ∀ entries : List (Key × Value), Ascending rank entries → entries.Nodup := fun entries ordered =>
    ordered.imp fun less equal => absurd less (by rw [equal]; exact lt_irrefl _)
  have perm : first.Perm second :=
    (List.perm_ext_iff_of_nodup (distinct first ascending) (distinct second ascendingToo)).mpr same
  exact perm.eq_of_pairwise (fun _ _ _ _ less greater => absurd less (lt_asymm greater)) ascending ascendingToo

theorem in_order_keys (table : Table Key Value) : (inOrder rank table).Pairwise fun first second => first.1 ≠ second.1 := by
  have distinct : (table.entries.map fun entry => (entry.1, entry.2)).Pairwise fun first second => first.1 ≠ second.1 :=
    List.pairwise_map.mpr (List.pairwise_map.mp table.nodupKeys)
  exact (List.perm_insertionSort _ _).symm.pairwise distinct Ne.symm

theorem in_order_ascending (injective : Function.Injective rank) (table : Table Key Value) :
    Ascending rank (inOrder rank table) := by
  have total : Std.Total fun first second : Key × Value => rank first.1 ≤ rank second.1 :=
    ⟨fun first second => le_total _ _⟩
  have trans : IsTrans (Key × Value) fun first second => rank first.1 ≤ rank second.1 :=
    ⟨fun _ _ _ early late => le_trans early late⟩
  have ordered : (inOrder rank table).Pairwise fun first second => rank first.1 ≤ rank second.1 :=
    List.pairwise_insertionSort _ _
  exact (List.Pairwise.and ordered (in_order_keys rank table)).imp fun both =>
    lt_of_le_of_ne both.1 fun same => both.2 (injective same)

variable [DecidableEq Key]

theorem mem_in_order (table : Table Key Value) (key : Key) (value : Value) :
    (key, value) ∈ inOrder rank table ↔ table.lookup key = some value := by
  have entry : (key, value) ∈ table.entries.map (fun entry => (entry.1, entry.2)) ↔ ⟨key, value⟩ ∈ table.entries := by
    constructor
    · intro member
      obtain ⟨⟨first, second⟩, inside, same⟩ := List.mem_map.mp member
      obtain ⟨rfl, rfl⟩ := Prod.mk.inj same
      exact inside
    · intro inside
      exact List.mem_map.mpr ⟨_, inside, rfl⟩
  rw [inOrder, List.mem_insertionSort, entry]
  exact AList.mem_lookup_iff.symm

theorem in_order_ext (injective : Function.Injective rank) (first second : Table Key Value)
    (same : ∀ key, first.lookup key = second.lookup key) : inOrder rank first = inOrder rank second := by
  refine ascending_ext rank _ _ (in_order_ascending rank injective first) (in_order_ascending rank injective second) ?_
  rintro ⟨key, value⟩
  rw [mem_in_order, mem_in_order, same]

end Table

-- The greatest of a list, where `rank` tells the values apart: no order of the list
-- matters to it. A table can keep it for each key.
namespace Table

variable {Key Value Rank : Type} [LinearOrder Rank] (rank : Value → Rank)

theorem argmax_iff (injective : Function.Injective rank) (values : List Value) (greatest : Value) :
    values.argmax rank = some greatest ↔ greatest ∈ values ∧ ∀ value ∈ values, rank value ≤ rank greatest := by
  constructor
  · exact fun found => ⟨List.argmax_mem found, fun value member => List.le_of_mem_argmax member found⟩
  · rintro ⟨member, above⟩
    cases found : values.argmax rank with
    | none =>
        rw [List.argmax_eq_none.mp found] at member
        exact absurd member List.not_mem_nil
    | some other =>
        have same := le_antisymm (above other (List.argmax_mem found)) (List.le_of_mem_argmax member found)
        rw [injective same]

theorem argmax_ext (injective : Function.Injective rank) (first second : List Value)
    (same : ∀ value, value ∈ first ↔ value ∈ second) : first.argmax rank = second.argmax rank := by
  ext greatest
  rw [argmax_iff rank injective, argmax_iff rank injective, same]
  simp only [same]

variable [DecidableEq Key]

def keepGreatest (table : Table Key Value) (entry : Key × Value) : Table Key Value :=
  match table.lookup entry.1 with
  | none => table.insert entry.1 entry.2
  | some current => if rank current < rank entry.2 then table.insert entry.1 entry.2 else table

def valuesOf (entries : List (Key × Value)) (key : Key) : List Value :=
  (entries.filter fun entry => entry.1 = key).map Prod.snd

theorem mem_values_of (entries : List (Key × Value)) (key : Key) (value : Value) :
    value ∈ valuesOf entries key ↔ (key, value) ∈ entries := by
  rw [valuesOf, List.mem_map]
  constructor
  · rintro ⟨⟨other, found⟩, inside, rfl⟩
    obtain ⟨member, same⟩ := List.mem_filter.mp inside
    obtain rfl : other = key := of_decide_eq_true same
    exact member
  · exact fun member => ⟨(key, value), List.mem_filter.mpr ⟨member, decide_eq_true rfl⟩, rfl⟩

theorem lookup_keep_greatest (entries : List (Key × Value)) (key : Key) :
    (entries.foldl (keepGreatest rank) ∅).lookup key = (valuesOf entries key).argmax rank := by
  induction entries using List.reverseRecOn generalizing key with
  | nil => rfl
  | append_singleton entries entry ih =>
      have others : key ≠ entry.1 → valuesOf (entries ++ [entry]) key = valuesOf entries key := by
        intro differ
        simp [valuesOf, Ne.symm differ]
      have own : valuesOf (entries ++ [entry]) entry.1 = valuesOf entries entry.1 ++ [entry.2] := by
        simp [valuesOf]
      rw [List.foldl_append, List.foldl_cons, List.foldl_nil, keepGreatest, ih entry.1]
      by_cases same : key = entry.1
      · rw [same, own, List.argmax_concat]
        cases before : (valuesOf entries entry.1).argmax rank with
        | none => exact AList.lookup_insert _
        | some current =>
            dsimp only
            split
            · exact AList.lookup_insert _
            · rw [ih, before]
      · rw [others same]
        split
        · rw [AList.lookup_insert_ne same, ih]
        · split
          · rw [AList.lookup_insert_ne same, ih]
          · exact ih key

def insertAll (entries : List (Key × Value)) : Table Key Value :=
  entries.foldl (fun table entry => table.insert entry.1 entry.2) ∅

-- A key that is inserted again keeps its last value.
theorem lookup_insert_all (entries : List (Key × Value)) (key : Key) :
    (insertAll entries).lookup key = (valuesOf entries key).getLast? := by
  induction entries using List.reverseRecOn with
  | nil => rfl
  | append_singleton entries entry ih =>
      rw [insertAll, List.foldl_append, List.foldl_cons, List.foldl_nil, lookup_insert_eq]
      by_cases same : key = entry.1
      · rw [if_pos same]
        simp [valuesOf, same]
      · rw [if_neg same]
        have others : valuesOf (entries ++ [entry]) key = valuesOf entries key := by
          simp [valuesOf, Ne.symm same]
        rw [others]
        exact ih

theorem empty_iff (table : Table Key Value) : table.entries = [] ↔ ∀ key, table.lookup key = none := by
  constructor
  · intro empty key
    rw [AList.lookup, empty]
    rfl
  · intro absent
    rcases entries : table.entries with _ | ⟨⟨key, value⟩, rest⟩
    · rfl
    · have found : table.lookup key = some value := by
        rw [AList.lookup, entries]
        exact List.dlookup_cons_eq rest key value
      rw [absent key] at found
      cases found

theorem singleton_iff (table : Table Key Value) (key : Key) (value : Value) :
    table.entries = [⟨key, value⟩] ↔
      table.lookup key = some value ∧ ∀ other, other ≠ key → table.lookup other = none := by
  constructor
  · intro entries
    refine ⟨?_, fun other differs => ?_⟩
    · rw [AList.lookup, entries]
      simp
    · rw [AList.lookup, entries]
      exact List.dlookup_cons_ne [] (⟨key, value⟩ : Sigma fun _ : Key => Value) differs
  · rintro ⟨found, others⟩
    have only : ∀ entry ∈ table.entries, entry = ⟨key, value⟩ := by
      rintro ⟨other, held⟩ member
      have here : table.lookup other = some held := AList.mem_lookup_iff.mpr member
      by_cases same : other = key
      · subst same
        rw [found] at here
        rw [Option.some.inj here]
      · rw [others other same] at here
        cases here
    have present : (⟨key, value⟩ : Sigma fun _ : Key => Value) ∈ table.entries := AList.mem_lookup_iff.mp found
    have distinct : table.entries.Nodup := List.NodupKeys.nodup table.nodupKeys
    exact List.perm_singleton.mp
      ((List.perm_ext_iff_of_nodup distinct (List.nodup_singleton _)).mpr fun entry =>
        ⟨fun member => List.mem_singleton.mpr (only entry member), fun here => by
          rw [List.mem_singleton.mp here]
          exact present⟩)

end Table
