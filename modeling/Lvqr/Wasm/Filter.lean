import Mathlib.Data.List.Induction
import Lvqr.Fragment.Broadcaster

set_option autoImplicit false

-- A filter module as the host runs it: a fresh instance for each fragment, which says
-- by its return value what becomes of the payload.
namespace Lvqr.Wasm

def pageSize : Nat := 65536

def i32Max : Nat := 2147483647

structure Memory where
  pages : Nat
  bytes : Bytes
  whole : bytes.length = pages * pageSize

-- What an instance exports, and how many pages its memory may come to. The exported
-- function is `none` on a trap.
structure Instance where
  memory : Option Memory
  mostPages : Nat
  onFragment : Option (Memory → Nat → Option (Memory × Int32))

namespace Memory

def grow (mostPages : Nat) (memory : Memory) (pages : Nat) : Option Memory :=
  if memory.pages + pages ≤ mostPages then
    some ⟨memory.pages + pages, memory.bytes ++ List.replicate (pages * pageSize) 0, by
      rw [List.length_append, List.length_replicate, memory.whole, Nat.add_mul]⟩
  else none

-- The write and read at offset 0.
def write (memory : Memory) (payload : Bytes) : Option Memory :=
  if within : payload.length ≤ memory.bytes.length then
    some ⟨memory.pages, payload ++ memory.bytes.drop payload.length, by
      rw [List.length_append, List.length_drop, Nat.add_sub_cancel' within, memory.whole]⟩
  else none

def read (memory : Memory) (length : Nat) : Option Bytes :=
  if length ≤ memory.bytes.length then some (memory.bytes.take length) else none

end Memory

-- `none` for a module that cannot be instantiated.
structure WasmFilter where
  instantiate : Option Instance

def growPages (needed : Nat) (memory : Memory) : Nat := (needed + (pageSize - 1)) / pageSize - memory.pages

def makeRoom (mostPages needed : Nat) (memory : Memory) : Option Memory :=
  if needed > memory.bytes.length then memory.grow mostPages (growPages needed memory) else some memory

def takeResult (fragment : Media.Fragment) (memory : Memory) (ret : Int32) : Option Media.Fragment :=
  if ret < 0 then none
  else
    let outLen := ret.toNatClampNeg
    if outLen > memory.bytes.length then none
    else
      match memory.read outLen with
      | none => none
      | some payload => some { fragment with payload := payload }

def callGuest (mostPages : Nat) (memory : Memory) (onFragment : Memory → Nat → Option (Memory × Int32))
    (fragment : Media.Fragment) : Option Media.Fragment :=
  let payloadLen := fragment.payload.length
  if payloadLen > i32Max then none
  else
    match makeRoom mostPages (max payloadLen 1) memory with
    | none => some fragment
    | some roomy =>
        match roomy.write fragment.payload with
        | none => some fragment
        | some filled =>
            match onFragment filled payloadLen with
            | none => some fragment
            | some (left, ret) => takeResult fragment left ret

def WasmFilter.apply (filter : WasmFilter) (fragment : Media.Fragment) : Option Media.Fragment :=
  match filter.instantiate with
  | none => some fragment
  | some guest =>
      match guest.memory with
      | none => some fragment
      | some memory =>
          match guest.onFragment with
          | none => some fragment
          | some onFragment => callGuest guest.mostPages memory onFragment fragment

-- The page count that is asked for is no smaller than what there is, so the
-- subtraction is exact.
theorem grow_covers (needed : Nat) (memory : Memory) (more : needed > memory.bytes.length) :
    memory.pages ≤ (needed + (pageSize - 1)) / pageSize ∧ needed ≤ (memory.pages + growPages needed memory) * pageSize := by
  have whole := memory.whole
  rw [growPages, pageSize] at *
  omega

theorem room_made (mostPages needed : Nat) (memory roomy : Memory)
    (made : makeRoom mostPages needed memory = some roomy) : needed ≤ roomy.bytes.length := by
  rw [makeRoom] at made
  split at made
  · rename_i more
    rw [Memory.grow] at made
    split at made
    · obtain rfl := Option.some.inj made
      have whole := memory.whole
      rw [List.length_append, List.length_replicate, whole, ← Nat.add_mul]
      exact (grow_covers needed memory more).2
    · cases made
  · rename_i enough
    obtain rfl := Option.some.inj made
    omega

-- What the guest finds: the payload at the front of memory that is large enough.
theorem room_filled (mostPages : Nat) (memory roomy : Memory) (payload : Bytes)
    (made : makeRoom mostPages (max payload.length 1) memory = some roomy) :
    ∃ filled, roomy.write payload = some filled ∧ payload <+: filled.bytes := by
  have room := room_made mostPages _ memory roomy made
  have within : payload.length ≤ roomy.bytes.length := by omega
  rw [Memory.write, dif_pos within]
  exact ⟨_, rfl, List.prefix_append _ _⟩

-- What the guest gives back when it is called; `none` where any of the ways there fails.
def WasmFilter.answer (filter : WasmFilter) (fragment : Media.Fragment) : Option (Memory × Int32) :=
  filter.instantiate.bind fun guest => guest.memory.bind fun memory => guest.onFragment.bind fun onFragment =>
    (makeRoom guest.mostPages (max fragment.payload.length 1) memory).bind fun roomy =>
      (roomy.write fragment.payload).bind fun filled => onFragment filled fragment.payload.length

def WasmFilter.callable (filter : WasmFilter) : Bool :=
  filter.instantiate.any fun guest => guest.memory.isSome && guest.onFragment.isSome

def Refused (left : Memory) (ret : Int32) : Prop := ret < 0 ∨ ret.toNatClampNeg > left.bytes.length

-- The read is always within the memory.
theorem take_refused (fragment : Media.Fragment) (left : Memory) (ret : Int32) (refused : Refused left ret) :
    takeResult fragment left ret = none := by
  rw [takeResult]
  split
  · rfl
  · rename_i nonnegative
    exact if_pos (refused.resolve_left nonnegative)

theorem take_accepted (fragment : Media.Fragment) (left : Memory) (ret : Int32) (accepted : ¬ Refused left ret) :
    takeResult fragment left ret = some { fragment with payload := left.bytes.take ret.toNatClampNeg } := by
  have nonnegative : ¬ ret < 0 := fun negative => accepted (.inl negative)
  have inside : ¬ ret.toNatClampNeg > left.bytes.length := fun outside => accepted (.inr outside)
  rw [takeResult, if_neg nonnegative]
  dsimp only
  rw [if_neg inside, Memory.read, if_pos (Nat.le_of_not_lt inside)]

-- The write into a memory with room for the payload never fails.
theorem apply_eq (filter : WasmFilter) (fragment : Media.Fragment) :
    filter.apply fragment =
      if filter.callable = true ∧ fragment.payload.length > i32Max then none
      else
        match filter.answer fragment with
        | none => some fragment
        | some (left, ret) => takeResult fragment left ret := by
  rw [WasmFilter.apply, WasmFilter.callable, WasmFilter.answer]
  cases filter.instantiate with
  | none => rfl
  | some guest =>
      obtain ⟨memory, mostPages, onFragment⟩ := guest
      dsimp only [Option.any_some, Option.bind_some]
      cases memory with
      | none => rfl
      | some memory =>
          dsimp only [Option.bind_some]
          cases onFragment with
          | none => rfl
          | some onFragment =>
              dsimp only [Option.bind_some, callGuest]
              by_cases long : fragment.payload.length > i32Max
              · rw [if_pos long, if_pos ⟨rfl, long⟩]
              · rw [if_neg long, if_neg fun both => long both.2]
                cases makeRoom mostPages (max fragment.payload.length 1) memory with
                | none => rfl
                | some roomy =>
                    dsimp only [Option.bind_some]
                    cases roomy.write fragment.payload with
                    | none => rfl
                    | some filled => rfl

-- What the guest is called on: the payload at the front of its memory.
theorem answer_reads (filter : WasmFilter) (fragment : Media.Fragment) (left : Memory) (ret : Int32)
    (answered : filter.answer fragment = some (left, ret)) :
    ∃ guest onFragment filled, filter.instantiate = some guest ∧ guest.onFragment = some onFragment ∧
      fragment.payload <+: filled.bytes ∧ onFragment filled fragment.payload.length = some (left, ret) := by
  rw [WasmFilter.answer] at answered
  obtain ⟨guest, isGuest, answered⟩ := Option.bind_eq_some_iff.mp answered
  obtain ⟨memory, _, answered⟩ := Option.bind_eq_some_iff.mp answered
  obtain ⟨onFragment, isExported, answered⟩ := Option.bind_eq_some_iff.mp answered
  obtain ⟨roomy, isRoomy, answered⟩ := Option.bind_eq_some_iff.mp answered
  obtain ⟨filled, isFilled, answered⟩ := Option.bind_eq_some_iff.mp answered
  refine ⟨guest, onFragment, filled, isGuest, isExported, ?_, answered⟩
  obtain ⟨_, wrote, front⟩ := room_filled guest.mostPages memory roomy fragment.payload isRoomy
  obtain rfl := Option.some.inj (isFilled.symm.trans wrote)
  exact front

theorem apply_none_iff (filter : WasmFilter) (fragment : Media.Fragment) :
    filter.apply fragment = none ↔ (filter.callable = true ∧ fragment.payload.length > i32Max) ∨
      ∃ left ret, filter.answer fragment = some (left, ret) ∧ Refused left ret := by
  rw [apply_eq]
  by_cases barred : filter.callable = true ∧ fragment.payload.length > i32Max
  · rw [if_pos barred]
    exact ⟨fun _ => .inl barred, fun _ => rfl⟩
  · rw [if_neg barred]
    cases filter.answer fragment with
    | none =>
        refine ⟨nofun, fun bad => ?_⟩
        rcases bad with isBarred | ⟨_, _, answered, _⟩
        · exact absurd isBarred barred
        · cases answered
    | some reply =>
        obtain ⟨left, ret⟩ := reply
        dsimp only
        by_cases refused : Refused left ret
        · rw [take_refused fragment left ret refused]
          exact ⟨fun _ => .inr ⟨left, ret, rfl, refused⟩, fun _ => rfl⟩
        · rw [take_accepted fragment left ret refused]
          refine ⟨nofun, fun bad => ?_⟩
          rcases bad with isBarred | ⟨_, _, answered, isRefused⟩
          · exact absurd isBarred barred
          · cases answered
            exact absurd isRefused refused

theorem apply_some (filter : WasmFilter) (fragment out : Media.Fragment) (kept : filter.apply fragment = some out) :
    (filter.answer fragment = none ∧ out = fragment) ∨
      ∃ left ret, filter.answer fragment = some (left, ret) ∧ ¬ Refused left ret ∧
        out = { fragment with payload := left.bytes.take ret.toNatClampNeg } := by
  rw [apply_eq] at kept
  split at kept
  · cases kept
  · cases answered : filter.answer fragment with
    | none =>
        rw [answered] at kept
        exact .inl ⟨rfl, (Option.some.inj kept).symm⟩
    | some reply =>
        obtain ⟨left, ret⟩ := reply
        rw [answered] at kept
        dsimp only at kept
        by_cases refused : Refused left ret
        · rw [take_refused fragment left ret refused] at kept
          cases kept
        · rw [take_accepted fragment left ret refused] at kept
          exact .inr ⟨left, ret, rfl, refused, (Option.some.inj kept).symm⟩

-- A fragment is dropped only where the guest says so or answers past its memory, or
-- where the payload has no length in the guest's terms. A fault on the way passes it on
-- as it is, and a guest that answers was called on the payload.
theorem apply_outcome (filter : WasmFilter) (fragment : Media.Fragment) :
    (filter.apply fragment = none ↔ (filter.callable = true ∧ fragment.payload.length > i32Max) ∨
      ∃ left ret, filter.answer fragment = some (left, ret) ∧ Refused left ret) ∧
    (∀ out, filter.apply fragment = some out → (filter.answer fragment = none ∧ out = fragment) ∨
      ∃ left ret, filter.answer fragment = some (left, ret) ∧ ¬ Refused left ret ∧
        out = { fragment with payload := left.bytes.take ret.toNatClampNeg }) ∧
    ∀ left ret, filter.answer fragment = some (left, ret) →
      ∃ guest onFragment filled, filter.instantiate = some guest ∧ guest.onFragment = some onFragment ∧
        fragment.payload <+: filled.bytes ∧ onFragment filled fragment.payload.length = some (left, ret) :=
  ⟨apply_none_iff filter fragment, apply_some filter fragment, answer_reads filter fragment⟩

-- A chain hands a fragment from filter to filter until one drops it.
def chainApply (filters : List WasmFilter) (fragment : Media.Fragment) : Option Media.Fragment :=
  filters.foldlM (fun fragment filter => filter.apply fragment) fragment

theorem chain_apply_snoc (filters : List WasmFilter) (filter : WasmFilter) (fragment : Media.Fragment) :
    chainApply (filters ++ [filter]) fragment = (chainApply filters fragment).bind filter.apply := by
  rw [chainApply, List.foldlM_append]
  refine congrArg (Option.bind (chainApply filters fragment)) (funext fun out => ?_)
  rw [List.foldlM_cons]
  exact bind_pure (filter.apply out)

theorem apply_keeps (filter : WasmFilter) (fragment out : Media.Fragment) (kept : filter.apply fragment = some out) :
    out = { fragment with payload := out.payload } := by
  rcases apply_some filter fragment out kept with ⟨_, rfl⟩ | ⟨_, _, _, _, rfl⟩
  · rfl
  · rfl

theorem chain_keeps (filters : List WasmFilter) (fragment out : Media.Fragment)
    (kept : chainApply filters fragment = some out) : out = { fragment with payload := out.payload } := by
  induction filters using List.reverseRecOn generalizing out with
  | nil =>
      cases kept
      rfl
  | append_singleton filters filter ih =>
      rw [chain_apply_snoc] at kept
      obtain ⟨middle, before, last⟩ := Option.bind_eq_some_iff.mp kept
      rw [apply_keeps filter middle out last, ih middle before]

end Lvqr.Wasm
