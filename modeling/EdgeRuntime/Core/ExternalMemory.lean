import Mathlib.Algebra.BigOperators.Group.List.Basic
import Mathlib.Data.UInt
import Mathlib.Tactic.Abel

/-!
# The array-buffer allocator

`CustomAllocator` (crates/sb_core/external_memory.rs) is the allocator a
worker's V8 isolate gets for its array buffers.  It counts the bytes it has
handed out in an `AtomicUsize` and refuses a request that takes the count
past `max`.  The three allocating entry points share one head: they
`fetch_add` the requested change to the counter, load it, and return a null
pointer when it is past `max`, without taking the change back.  `free`
subtracts the length of the buffer it drops.

The counter is a `usize` updated by wrapping atomics; it is a `UInt64` here.
The waker the entry points notify changes no count and is left out.

Around the entry points, a `Heap` is the allocator with the buffers V8
holds from it, and `Heap.call` is one call V8 makes, on a live buffer with
its true length.  The design's invariant is that the counter is the total
length of the live buffers (`Heap.Exact`).

## Main results

* `call_leak`: every call moves the difference between the counter and the
  live total by what it requested if it returned null, and by nothing if it
  did not.
* `count_callAll`: from an exact heap, after any run of calls the counter is
  the live total plus the requests refused on the way.
* `allocate_failure_sticks`: from an exact heap, an allocation the limit
  refuses leaves the counter past the live total by its size, and every
  allocation after it fails, whatever its size.
-/

namespace EdgeRuntime.Core

/-- An array buffer: its bytes, at most a `usize` of them. -/
abbrev Buffer := {bytes : List UInt8 // bytes.length < 2 ^ 64}

namespace Buffer

/-- The length V8 passes with a buffer. -/
def len (b : Buffer) : UInt64 := UInt64.ofNat b.1.length

theorem toNat_len (b : Buffer) : b.len.toNat = b.1.length :=
  UInt64.toNat_ofNat_of_lt' b.2

/-- `vec![0u8; n]`. -/
def zeros (n : UInt64) : Buffer :=
  ⟨List.replicate n.toNat 0, by simpa using n.toNat_lt⟩

/-- The buffer `reallocate` builds from `prev`: its first `min oldlen newlen`
bytes, then zeros up to `newlen`. -/
def resize (prev : Buffer) (oldlen newlen : UInt64) : Buffer :=
  ⟨prev.1.take (min oldlen newlen).toNat ++
      List.replicate (newlen.toNat - (min oldlen newlen).toNat) 0, by
    have hnew := newlen.toNat_lt
    have hmin := (min oldlen newlen).toNat_lt
    have htake := List.length_take_le (min oldlen newlen).toNat prev.1
    simp only [List.length_append, List.length_replicate]
    omega⟩

@[simp] theorem len_zeros (n : UInt64) : (zeros n).len = n := by
  simp [len, zeros, UInt64.ofNat_toNat]

/-- Resizing a buffer given its true length yields `newlen` bytes. -/
@[simp] theorem len_resize (prev : Buffer) (newlen : UInt64) :
    (prev.resize prev.len newlen).len = newlen := by
  have hmin : (min prev.len newlen).toNat ≤ prev.1.length := by
    rw [UInt64.toNat_min, toNat_len]
    exact Nat.min_le_left _ _
  have hle : (min prev.len newlen).toNat ≤ newlen.toNat := by
    rw [UInt64.toNat_min]
    exact Nat.min_le_right _ _
  have hlength : (prev.resize prev.len newlen).1.length = newlen.toNat := by
    simp only [resize, List.length_append, List.length_take, List.length_replicate]
    omega
  rw [len, hlength, UInt64.ofNat_toNat]

end Buffer

/-- `CustomAllocator`, with the fields the counting reads. -/
structure CustomAllocator where
  max : UInt64
  count : UInt64
  deriving DecidableEq, Repr

namespace CustomAllocator

/-- `CustomAllocator::new`. -/
def new (max : UInt64) : CustomAllocator := ⟨max, 0⟩

/-- The head of `allocate`, `allocate_uninitialized` and `reallocate`: add
`delta` to the counter, then compare the loaded counter with `max`.  The
flag is `true` when the request goes on and `false` when it returns null;
the counter keeps `delta` either way. -/
def charge (a : CustomAllocator) (delta : UInt64) : CustomAllocator × Bool :=
  ({ a with count := a.count + delta }, !decide (a.count + delta > a.max))

/-- An allocating entry point: charge `delta`, and hand out `store` if the
limit lets the request through. -/
def allocateWith (a : CustomAllocator) (delta : UInt64) (store : Buffer) :
    CustomAllocator × Option Buffer :=
  match a.charge delta with
  | (a', true) => (a', some store)
  | (a', false) => (a', none)

/-- `allocate`: `n` zero bytes. -/
def allocate (a : CustomAllocator) (n : UInt64) : CustomAllocator × Option Buffer :=
  a.allocateWith n (Buffer.zeros n)

/-- `allocate_uninitialized`: `n` bytes of whatever the fresh memory `store`
holds. -/
def allocateUninitialized (a : CustomAllocator) (n : UInt64) (store : Buffer) :
    CustomAllocator × Option Buffer :=
  a.allocateWith n store

/-- `reallocate`: the counter moves by `newlen.wrapping_sub(oldlen)`, and the
old buffer is copied into a new one of `newlen` bytes. -/
def reallocate (a : CustomAllocator) (prev : Buffer) (oldlen newlen : UInt64) :
    CustomAllocator × Option Buffer :=
  a.allocateWith (newlen - oldlen) (prev.resize oldlen newlen)

/-- `free`: the counter drops by the buffer's length. -/
def free (a : CustomAllocator) (n : UInt64) : CustomAllocator :=
  { a with count := a.count - n }

theorem allocateWith_eq (a : CustomAllocator) (delta : UInt64) (store : Buffer) :
    a.allocateWith delta store =
      ({ a with count := a.count + delta },
        if a.count + delta > a.max then none else some store) := by
  unfold allocateWith charge
  by_cases hover : a.count + delta > a.max <;> simp [hover]

end CustomAllocator

/-- `a + b` of two `usize`s that does not wrap. -/
theorem toNat_add_of_lt {a b : UInt64} (h : a.toNat + b.toNat < 2 ^ 64) :
    (a + b).toNat = a.toNat + b.toNat := by
  rw [UInt64.toNat_add, Nat.mod_eq_of_lt h]

/-- The total length of some buffers, as a `usize`. -/
def total (live : List Buffer) : UInt64 := (live.map Buffer.len).sum

theorem total_append (live : List Buffer) (b : Buffer) :
    total (live ++ [b]) = total live + b.len := by
  simp [total]

theorem total_set {live : List Buffer} {i : Nat} {prev : Buffer} (hi : live[i]? = some prev)
    (b : Buffer) : total (live.set i b) = total live - prev.len + b.len := by
  have hlt : i < live.length := (List.getElem?_eq_some_iff.1 hi).1
  have hprev : live[i] = prev := (List.getElem?_eq_some_iff.1 hi).2
  simp only [total, List.map_set]
  rw [List.sum_set', dif_pos (by simpa using hlt), List.getElem_map, hprev]
  abel

theorem total_eraseIdx {live : List Buffer} {i : Nat} {b : Buffer} (hi : live[i]? = some b) :
    total (live.eraseIdx i) = total live - b.len := by
  have hlt : i < live.length := (List.getElem?_eq_some_iff.1 hi).1
  have hb : live[i] = b := (List.getElem?_eq_some_iff.1 hi).2
  have hsum := List.CommMonoid.add_sum_eraseIdx (l := live.map Buffer.len) (i := i)
    (by simpa using hlt)
  rw [List.getElem_map, hb] at hsum
  rw [total, total, ← List.eraseIdx_map, ← hsum]
  abel

/-- The allocator with the buffers V8 holds from it. -/
structure Heap where
  alloc : CustomAllocator
  live : List Buffer

/-- A call V8 makes on the allocator; `reallocate` and `free` name a live
buffer by its position, and pass its true length. -/
inductive Call
  | allocate (n : UInt64)
  | allocateUninitialized (n : UInt64) (store : Buffer)
  | reallocate (index : Nat) (newlen : UInt64)
  | free (index : Nat)

namespace Heap

/-- The total length of the live buffers. -/
def liveTotal (h : Heap) : UInt64 := total h.live

/-- The design's invariant: the counter is the live total. -/
def Exact (h : Heap) : Prop := h.alloc.count = h.liveTotal

/-- What a call asks the counter for. -/
def request (h : Heap) : Call → UInt64
  | .allocate n => n
  | .allocateUninitialized n _ => n
  | .reallocate index newlen => newlen - (h.live[index]?.map Buffer.len).getD 0
  | .free _ => 0

/-- V8 takes a new buffer as live, and nothing from a null pointer; the flag
says the pointer was null. -/
def receive (h : Heap) : CustomAllocator × Option Buffer → Heap × Bool
  | (a, some b) => (⟨a, h.live ++ [b]⟩, false)
  | (a, none) => (⟨a, h.live⟩, true)

/-- One call and whether it returned null; `none` for a call V8 does not
make: on a buffer that is not live, or with a store of another length. -/
def call (h : Heap) : Call → Option (Heap × Bool)
  | .allocate n => some (h.receive (h.alloc.allocate n))
  | .allocateUninitialized n store =>
      if store.len = n then some (h.receive (h.alloc.allocateUninitialized n store)) else none
  | .reallocate index newlen =>
      match h.live[index]? with
      | none => none
      | some prev =>
          match h.alloc.reallocate prev prev.len newlen with
          | (a, some b) => some (⟨a, h.live.set index b⟩, false)
          | (a, none) => some (⟨a, h.live⟩, true)
  | .free index =>
      match h.live[index]? with
      | none => none
      | some b => some (⟨h.alloc.free b.len, h.live.eraseIdx index⟩, false)

/-- The calls V8 makes in turn, and the total it was refused: the request of
every call that returned null, as the call was made. -/
def callAll : Heap → List Call → Option (Heap × UInt64)
  | h, [] => some (h, 0)
  | h, c :: cs => (h.call c).bind fun r =>
      (r.1.callAll cs).map fun q => (q.1, (if r.2 then h.request c else 0) + q.2)

/-! ## What one call does to the counter -/

/-- The gap between the counter and the live total. -/
def leak (h : Heap) : UInt64 := h.alloc.count - h.liveTotal

/-- An allocation of `delta` bytes: null, and the buffers as they were, when
the charged counter is past the limit; the new buffer otherwise. -/
theorem receive_allocateWith (h : Heap) (delta : UInt64) (store : Buffer) :
    h.receive (h.alloc.allocateWith delta store) =
      if h.alloc.count + delta > h.alloc.max then
        (⟨⟨h.alloc.max, h.alloc.count + delta⟩, h.live⟩, true)
      else (⟨⟨h.alloc.max, h.alloc.count + delta⟩, h.live ++ [store]⟩, false) := by
  rw [CustomAllocator.allocateWith_eq]
  by_cases hover : h.alloc.count + delta > h.alloc.max <;> simp [hover, receive]

/-- An allocation moves the gap by its request when it returns null, and
leaves it when it does not. -/
theorem leak_receive (h : Heap) (delta : UInt64) (store : Buffer) (hstore : store.len = delta) :
    (h.receive (h.alloc.allocateWith delta store)).1.leak =
      h.leak + if (h.receive (h.alloc.allocateWith delta store)).2 then delta else 0 := by
  rw [receive_allocateWith]
  by_cases hover : h.alloc.count + delta > h.alloc.max
  · simp only [hover, if_true, leak, liveTotal]
    abel
  · simp only [hover, if_false, Bool.false_eq_true, leak, liveTotal, total_append, hstore]
    abel

/-- Every call moves the gap between the counter and the live total by its
request when it returns null, and leaves it when it does not. -/
theorem call_leak {h h' : Heap} {c : Call} {null : Bool} (hcall : h.call c = some (h', null)) :
    h'.leak = h.leak + if null then h.request c else 0 := by
  cases c with
  | allocate n =>
      simp only [call, Option.some.injEq] at hcall
      have hleak := leak_receive h n (Buffer.zeros n) (Buffer.len_zeros n)
      rw [← CustomAllocator.allocate, hcall] at hleak
      exact hleak
  | allocateUninitialized n store =>
      simp only [call] at hcall
      split at hcall
      · rename_i hstore
        simp only [Option.some.injEq] at hcall
        have hleak := leak_receive h n store hstore
        rw [← CustomAllocator.allocateUninitialized, hcall] at hleak
        exact hleak
      · cases hcall
  | reallocate index newlen =>
      simp only [call] at hcall
      split at hcall
      · cases hcall
      · rename_i prev hprev
        have hrequest : h.request (.reallocate index newlen) = newlen - prev.len := by
          simp [request, hprev]
        rw [CustomAllocator.reallocate, CustomAllocator.allocateWith_eq] at hcall
        by_cases hover : h.alloc.count + (newlen - prev.len) > h.alloc.max
        · simp only [hover, if_true, Option.some.injEq, Prod.mk.injEq] at hcall
          obtain ⟨rfl, rfl⟩ := hcall
          simp only [leak, liveTotal, hrequest, if_true]
          abel
        · simp only [hover, if_false, Option.some.injEq, Prod.mk.injEq] at hcall
          obtain ⟨rfl, rfl⟩ := hcall
          simp only [leak, liveTotal, total_set hprev, Buffer.len_resize, Bool.false_eq_true,
            if_false]
          abel
  | free index =>
      simp only [call] at hcall
      split at hcall
      · cases hcall
      · rename_i b hb
        simp only [Option.some.injEq, Prod.mk.injEq] at hcall
        obtain ⟨rfl, rfl⟩ := hcall
        simp only [leak, liveTotal, total_eraseIdx hb, CustomAllocator.free, Bool.false_eq_true,
          if_false]
        abel

/-! ## Whole runs -/

/-- The run rule of `call_leak`: a run moves the gap by the total it was
refused. -/
theorem leak_callAll :
    ∀ {h : Heap} {cs : List Call} {h' : Heap} {refused : UInt64},
      h.callAll cs = some (h', refused) → h'.leak = h.leak + refused
  | h, [], h', refused, hrun => by
      cases hrun
      rw [add_zero]
  | h, c :: cs, h', refused, hrun => by
      obtain ⟨⟨h₁, null⟩, hcall, hrest⟩ := Option.bind_eq_some_iff.1 hrun
      obtain ⟨⟨h₂, refused₂⟩, hrun₂, heq⟩ := Option.map_eq_some_iff.1 hrest
      cases heq
      rw [leak_callAll hrun₂, call_leak hcall, add_assoc]

/-- From an exact heap, after any run of calls the counter is the live total
plus every request refused on the way: a refused request is charged and
never given back. -/
theorem count_callAll (h : Heap) (hexact : h.Exact) {cs : List Call} {h' : Heap}
    {refused : UInt64} (hrun : h.callAll cs = some (h', refused)) :
    h'.alloc.count = h'.liveTotal + refused := by
  have hleak := leak_callAll hrun
  rw [leak, leak, hexact, sub_self, zero_add] at hleak
  rw [← hleak]
  exact (add_sub_cancel _ _).symm

/-- With a limit of ten bytes: four bytes allocated, twenty refused, the four
freed; the counter stays at twenty with nothing live. -/
theorem count_callAll_ten :
    ∃ h', (⟨.new 10, []⟩ : Heap).callAll [.allocate 4, .allocate 20, .free 0] = some (h', 20) ∧
      h'.alloc.count = h'.liveTotal + 20 :=
  ⟨_, rfl, @count_callAll ⟨.new 10, []⟩ rfl [.allocate 4, .allocate 20, .free 0] _ _ rfl⟩

/-! ## A refused allocation -/

theorem allocate_failure_sticks (h : Heap) (hexact : h.Exact) (n : UInt64)
    (hover : h.alloc.max.toNat < h.liveTotal.toNat + n.toNat)
    (hfit : h.liveTotal.toNat + n.toNat < 2 ^ 64) :
    ∃ h₁, h.call (.allocate n) = some (h₁, true) ∧ h₁.live = h.live ∧
      h₁.alloc.count = h.liveTotal + n ∧
      ∀ m : UInt64, h.liveTotal.toNat + n.toNat + m.toNat < 2 ^ 64 →
        ∃ h₂, h₁.call (.allocate m) = some (h₂, true) := by
  have hfail : h.alloc.count + n > h.alloc.max := by
    rw [hexact, gt_iff_lt, UInt64.lt_iff_toNat_lt, toNat_add_of_lt hfit]
    exact hover
  refine ⟨⟨⟨h.alloc.max, h.alloc.count + n⟩, h.live⟩, ?_, rfl, by rw [hexact], ?_⟩
  · rw [call, CustomAllocator.allocate, receive_allocateWith, if_pos hfail]
  · intro m hm
    have hsum : (h.liveTotal + n).toNat + m.toNat < 2 ^ 64 := by
      rw [toNat_add_of_lt hfit]
      exact hm
    have hfail' : h.alloc.count + n + m > h.alloc.max := by
      rw [hexact, gt_iff_lt, UInt64.lt_iff_toNat_lt, toNat_add_of_lt hsum, toNat_add_of_lt hfit]
      omega
    refine ⟨⟨⟨h.alloc.max, h.alloc.count + n + m⟩, h.live⟩, ?_⟩
    rw [call, CustomAllocator.allocate, receive_allocateWith, if_pos hfail']

/-- With a limit of ten bytes and nothing live, a request for twenty bytes
fails and leaves the counter at twenty; a request for one byte then fails
too. -/
theorem allocate_failure_sticks_ten :
    ∃ h₁, (⟨.new 10, []⟩ : Heap).call (.allocate 20) = some (h₁, true) ∧ h₁.live = [] ∧
      h₁.alloc.count = 20 ∧ ∃ h₂, h₁.call (.allocate 1) = some (h₂, true) := by
  obtain ⟨h₁, hcall, hlive, hcount, hnext⟩ :=
    allocate_failure_sticks ⟨.new 10, []⟩ rfl 20 (by decide) (by decide)
  exact ⟨h₁, hcall, hlive, hcount, hnext 1 (by decide)⟩

end Heap

end EdgeRuntime.Core
