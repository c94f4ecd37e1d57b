import FrameMachine.Proofs.Windows

/-!
# The arena as a map of bytes

All that can be seen of an arena is a map from offsets to bytes and a stack pointer.  This
file gives the requests to an arena their meaning on such maps, where a request replaces
a run of bytes and moves the stack pointer, and shows that an arena carries out exactly the
requests whose ranges end inside it and for whose bytes there is room.

Main results:

- Theorem `Arena.Represents.perform`: an arena does to its bytes what the request does to a map.
- Theorem `Arena.performAll_represents`: so do all requests to a fresh arena, one after
  another, and the stack pointer never leaves the arena.
-/

namespace FrameMachine

/-! ## Requests by their ranges -/

namespace Arena.Operation

/-- The ranges that a request names, in the order in which they are checked. -/
def ranges : Operation → List Address
  | .read range | .zero range => [range]
  | .write offset bytes => [⟨offset, bytes.length⟩]
  | .copy source target => [source, ⟨target, source.length⟩]
  | .reserve _ | .releaseTo _ | .describe => []

/-- The number of bytes that a request takes above the stack pointer. -/
def demand : Operation → Nat
  | .reserve size => size
  | _ => 0

end Arena.Operation

/-! ## Maps of bytes -/

/-- A byte for every offset, of which the first `capacity` ones count, and the offset of the
first unused byte. -/
structure ByteMap where
  capacity : Nat
  stackPointer : Nat
  byte : Nat → UInt8

namespace ByteMap

/-- All bytes are zero, and none is in use. -/
def empty (capacity : Nat) : ByteMap := ⟨capacity, 0, fun _ => 0⟩

/-- The description shows the capacity and the stack pointer, and no byte. -/
def describe (m : ByteMap) : String :=
  "Memory \x7b capacity: " ++ toString m.capacity ++ ", stack_pointer: " ++
    toString m.stackPointer ++ " \x7d"

/-- The bytes of a range. -/
def get (m : ByteMap) (range : Address) : Bytes :=
  (List.range range.length).map fun k => m.byte (range.offset + k)

/-- The map with `length` bytes from `offset` on replaced. -/
def put (m : ByteMap) (offset length : Nat) (value : Nat → UInt8) : ByteMap where
  capacity := m.capacity
  stackPointer := m.stackPointer
  byte k := if offset ≤ k ∧ k < offset + length then value (k - offset) else m.byte k

/-- A range ends inside the map, at a word. -/
def Holds (m : ByteMap) (range : Address) : Prop :=
  range.offset + range.length < Word.count ∧ range.offset + range.length ≤ m.capacity

instance (m : ByteMap) (range : Address) : Decidable (m.Holds range) :=
  inferInstanceAs (Decidable (_ ∧ _))

/-- A request can be fulfilled: its ranges end inside the map, and there is room for the
bytes that it takes. -/
def Permits (m : ByteMap) (op : Arena.Operation) : Prop :=
  (∀ range ∈ op.ranges, m.Holds range) ∧ op.demand ≤ m.capacity - m.stackPointer

instance (m : ByteMap) (op : Arena.Operation) : Decidable (m.Permits op) :=
  inferInstanceAs (Decidable (_ ∧ _))

/-- Why a request is not fulfilled: the first range that does not end inside the map, or the
want of room. -/
inductive Refuses (m : ByteMap) (op : Arena.Operation) : Arena.Failure → Prop
  | range {range : Address} (h : op.ranges.find? (fun r => ¬ m.Holds r) = some range) :
      Refuses m op (.outOfBounds ⟨range.offset, range.length, m.capacity⟩)
  | room (h : m.capacity - m.stackPointer < op.demand) :
      Refuses m op (.exhausted (.memory op.demand (m.capacity - m.stackPointer)))

/-- What a request that is fulfilled brings back. -/
def answer (m : ByteMap) : Arena.Operation → Arena.Answer
  | .read range => .bytes (m.get range)
  | .reserve _ => .base m.stackPointer
  | .describe => .text m.describe
  | _ => .done

/-- What a request that is fulfilled leaves behind.  A copy takes all its bytes before it
stores any. -/
def apply (m : ByteMap) : Arena.Operation → ByteMap
  | .read _ | .describe => m
  | .write offset bytes => m.put offset bytes.length fun k => bytes.getD k 0
  | .zero range => m.put range.offset range.length fun _ => 0
  | .copy source target => m.put target source.length fun k => m.byte (source.offset + k)
  | .reserve size =>
      { m.put m.stackPointer size fun _ => 0 with stackPointer := m.stackPointer + size }
  | .releaseTo pointer => { m with stackPointer := min pointer m.stackPointer }

/-- The map after a request; one that is not permitted does nothing. -/
def step (m : ByteMap) (op : Arena.Operation) : ByteMap :=
  if m.Permits op then m.apply op else m

/-- The map after a sequence of requests. -/
def stepAll (m : ByteMap) (ops : List Arena.Operation) : ByteMap := ops.foldl step m

theorem Refuses.not_permits {m : ByteMap} {op : Arena.Operation} {e : Arena.Failure}
    (h : m.Refuses op e) : ¬ m.Permits op := by
  rintro ⟨hranges, hroom⟩
  cases h with
  | range h =>
      have hmiss := List.find?_some h
      simp only [decide_eq_true_eq] at hmiss
      exact hmiss (hranges _ (List.mem_of_find?_eq_some h))
  | room h => omega

end ByteMap

/-! ## One request -/

namespace Arena

/-- The arena has the size, the stack pointer and the bytes of a map. -/
structure Represents (a : Arena) (m : ByteMap) : Prop where
  capacity_eq : a.capacity = m.capacity
  stackPointer_eq : a.stackPointer = m.stackPointer
  byte_eq : ∀ k < a.capacity, a.cells[k]? = some (m.byte k)

/-- The outcome of a request to an arena is that of the request to a map. -/
def Follows (a : Arena) (m : ByteMap) (op : Operation) : EStateM.Result Failure Arena Answer → Prop
  | .ok answer next => m.Permits op ∧ answer = m.answer op ∧ next.Represents (m.apply op)
  | .error e same => ¬ m.Permits op ∧ m.Refuses op e ∧ same = a

namespace Represents

variable {a : Arena} {m : ByteMap} {range : Address} {op : Operation}

theorem empty (capacity : Nat) : (Arena.empty capacity).Represents (ByteMap.empty capacity) where
  capacity_eq := Array.size_replicate
  stackPointer_eq := rfl
  byte_eq k hk := by
    simp only [Arena.capacity, Arena.empty, Array.size_replicate] at hk
    simp only [Arena.empty, Array.getElem?_replicate, hk, if_true]
    rfl

theorem contains_iff (h : a.Represents m) : a.contains range = true ↔ m.Holds range := by
  rw [Arena.contains_iff, h.capacity_eq, ByteMap.Holds]

theorem slice_getElem? (h : a.Represents m) (hin : m.Holds range) {k : Nat}
    (hk : k < range.length) : (a.slice range)[k]? = some (m.byte (range.offset + k)) := by
  rw [getElem?_slice, if_pos hk]
  apply h.byte_eq
  have hstop := hin.2
  have hcapacity := h.capacity_eq
  omega

/-- The bytes of a range are those of the map. -/
theorem slice_eq (h : a.Represents m) (hin : m.Holds range) : a.slice range = m.get range := by
  have hlength : (a.slice range).length = range.length :=
    length_slice (h.capacity_eq.symm ▸ hin.2)
  apply List.ext_getElem?
  intro k
  by_cases hk : k < range.length
  · rw [h.slice_getElem? hin hk]
    simp [ByteMap.get, hk]
  · rw [List.getElem?_eq_none (by omega), List.getElem?_eq_none (by simp [ByteMap.get]; omega)]

theorem describe_eq (h : a.Represents m) : a.describe = m.describe := by
  unfold describe ByteMap.describe
  rw [h.capacity_eq, h.stackPointer_eq]

/-- Bytes stored from an offset on replace those of the map. -/
theorem store (h : a.Represents m) (offset : Nat) {bytes : Bytes} {length : Nat}
    {value : Nat → UInt8} (hlength : bytes.length = length)
    (hvalue : ∀ k < length, bytes[k]? = some (value k)) :
    (a.store offset bytes).Represents (m.put offset length value) where
  capacity_eq := (capacity_store a offset bytes).trans h.capacity_eq
  stackPointer_eq := h.stackPointer_eq
  byte_eq k hk := by
    rw [capacity_store] at hk
    simp only [cells_store, getElem?_overwrite, ByteMap.put, hlength]
    by_cases hin : offset ≤ k ∧ k < offset + length
    · rw [if_pos ⟨hin.1, hin.2, hk⟩, if_pos hin]
      exact hvalue _ (by omega)
    · rw [if_neg fun hall => hin ⟨hall.1, hall.2.1⟩, if_neg hin]
      exact h.byte_eq k hk

theorem store_bytes (h : a.Represents m) (offset : Nat) (bytes : Bytes) :
    (a.store offset bytes).Represents (m.put offset bytes.length fun k => bytes.getD k 0) := by
  apply h.store offset rfl
  intro k hk
  rw [List.getD_eq_getElem?_getD, List.getElem?_eq_getElem hk, Option.getD_some]

theorem store_zeros (h : a.Represents m) (offset length : Nat) :
    (a.store offset (List.replicate length 0)).Represents (m.put offset length fun _ => 0) := by
  apply h.store offset List.length_replicate
  intro k hk
  rw [List.getElem?_replicate, if_pos hk]

theorem store_slice (h : a.Represents m) {source : Address} (hin : m.Holds source) (target : Nat) :
    (a.store target (a.slice source)).Represents
      (m.put target source.length fun k => m.byte (source.offset + k)) :=
  h.store target (length_slice (h.capacity_eq.symm ▸ hin.2)) fun _ hk => h.slice_getElem? hin hk

/-- Bytes taken at the stack pointer are zeroed. -/
theorem reserve (h : a.Represents m) (size : Nat) :
    Represents ⟨overwrite a.cells a.stackPointer (List.replicate size 0), a.stackPointer + size⟩
      (m.apply (.reserve size)) := by
  rw [h.stackPointer_eq]
  have hstore := h.store_zeros m.stackPointer size
  exact ⟨hstore.capacity_eq, rfl, hstore.byte_eq⟩

/-! ### Permission and refusal -/

theorem permits_of_ranges (h : a.Represents m)
    (hranges : ∀ range ∈ op.ranges, a.contains range = true) (hdemand : op.demand = 0) :
    m.Permits op :=
  ⟨fun range hrange => h.contains_iff.mp (hranges range hrange), hdemand ▸ Nat.zero_le _⟩

/-- A request that names one range and takes no bytes is permitted if the range lies inside. -/
theorem permits_of_contains (h : a.Represents m) (hranges : op.ranges = [range])
    (hdemand : op.demand = 0) (hin : a.contains range = true) : m.Permits op :=
  h.permits_of_ranges (hranges ▸ List.forall_mem_singleton.mpr hin) hdemand

theorem follows_of_refuses {e : Failure} (h : m.Refuses op e) : a.Follows m op (.error e a) :=
  ⟨h.not_permits, h, rfl⟩

/-- A request is refused for its first range that does not end inside the arena. -/
theorem follows_of_out (h : a.Represents m) (before : List Address) {after : List Address}
    (hranges : op.ranges = before ++ range :: after)
    (hbefore : ∀ r ∈ before, a.contains r = true) (hout : ¬ a.contains range = true) :
    a.Follows m op (.error (.outOfBounds (a.outOfBounds range)) a) := by
  apply follows_of_refuses
  rw [outOfBounds, h.capacity_eq]
  apply ByteMap.Refuses.range
  rw [List.find?_eq_some_iff_append]
  rw [h.contains_iff] at hout
  refine ⟨by simpa using hout, before, after, hranges, fun r hr => ?_⟩
  simpa using h.contains_iff.mp (hbefore r hr)

/-- So it is with the first range of all. -/
theorem follows_of_head_out (h : a.Represents m) {after : List Address}
    (hranges : op.ranges = range :: after) (hout : ¬ a.contains range = true) :
    a.Follows m op (.error (.outOfBounds (a.outOfBounds range)) a) :=
  h.follows_of_out [] hranges (List.forall_mem_nil _) hout

/-- A request does to an arena what it does to the map of its bytes; if it is refused, it
changes nothing. -/
theorem perform (h : a.Represents m) (op : Operation) : a.Follows m op (perform op a) := by
  cases op with
  | read range =>
      simp only [Arena.perform, read]
      by_cases hin : a.contains range = true
      · rw [if_pos hin]
        refine ⟨h.permits_of_contains rfl rfl hin, ?_, h⟩
        exact congrArg Answer.bytes (h.slice_eq (h.contains_iff.mp hin))
      · rw [if_neg hin]
        exact h.follows_of_head_out rfl hin
  | write offset bytes =>
      simp only [Arena.perform, write]
      by_cases hin : a.contains ⟨offset, bytes.length⟩ = true
      · rw [if_pos hin]
        exact ⟨h.permits_of_contains rfl rfl hin, rfl, h.store_bytes offset bytes⟩
      · rw [if_neg hin]
        exact h.follows_of_head_out rfl hin
  | zero range =>
      simp only [Arena.perform, zero]
      by_cases hin : a.contains range = true
      · rw [if_pos hin]
        exact ⟨h.permits_of_contains rfl rfl hin, rfl,
          h.store_zeros range.offset range.length⟩
      · rw [if_neg hin]
        exact h.follows_of_head_out rfl hin
  | copy source target =>
      simp only [Arena.perform, copy]
      by_cases hsource : a.contains source = true
      · rw [if_pos hsource]
        by_cases htarget : a.contains ⟨target, source.length⟩ = true
        · rw [if_pos htarget]
          -- The bytes are taken from the arena as it was, so an overlap does no harm.
          have hboth : ∀ range ∈ (Operation.copy source target).ranges, a.contains range = true :=
            List.forall_mem_cons.mpr ⟨hsource, List.forall_mem_singleton.mpr htarget⟩
          exact ⟨h.permits_of_ranges hboth rfl, rfl,
            h.store_slice (h.contains_iff.mp hsource) target⟩
        · rw [if_neg htarget]
          exact h.follows_of_out [source] rfl (List.forall_mem_singleton.mpr hsource) htarget
      · rw [if_neg hsource]
        exact h.follows_of_head_out rfl hsource
  | reserve size =>
      have havailable : a.available = m.capacity - m.stackPointer := by
        rw [available, h.capacity_eq, h.stackPointer_eq]
      simp only [Arena.perform, Arena.reserve, havailable]
      by_cases hroom : size ≤ m.capacity - m.stackPointer
      · rw [if_pos hroom]
        exact ⟨⟨List.forall_mem_nil _, hroom⟩, congrArg Answer.base h.stackPointer_eq,
          h.reserve size⟩
      · rw [if_neg hroom]
        exact follows_of_refuses (.room (Nat.not_le.mp hroom))
  | releaseTo pointer =>
      refine ⟨h.permits_of_ranges (List.forall_mem_nil _) rfl, rfl, h.capacity_eq, ?_, h.byte_eq⟩
      exact congrArg (min pointer) h.stackPointer_eq
  | describe =>
      refine ⟨h.permits_of_ranges (List.forall_mem_nil _) rfl, ?_, h⟩
      exact congrArg Answer.text h.describe_eq

end Represents

/-! ## Requests to a fresh arena -/

/-- The arena after a sequence of requests, fulfilled or not. -/
def performAll (a : Arena) (ops : List Operation) : Arena :=
  ops.foldl (fun a op => after (perform op a)) a

section Sequences

variable {a : Arena} {m : ByteMap}

theorem Represents.after_perform (h : a.Represents m) (op : Operation) :
    (after (Arena.perform op a)).Represents (m.step op) := by
  have hfollows := h.perform op
  unfold ByteMap.step
  cases hresult : Arena.perform op a with
  | ok answer next =>
      rw [hresult] at hfollows
      rw [if_pos hfollows.1]
      exact hfollows.2.2
  | error e same =>
      rw [hresult] at hfollows
      rw [if_neg hfollows.1]
      exact hfollows.2.2 ▸ h

theorem Represents.performAll (h : a.Represents m) (ops : List Operation) :
    (a.performAll ops).Represents (m.stepAll ops) :=
  List.foldl_rel h fun op _ _ _ hrest => hrest.after_perform op

theorem performAll_bounds (ops : List Operation) (h : a.stackPointer ≤ a.capacity) :
    (a.performAll ops).capacity = a.capacity ∧
      (a.performAll ops).stackPointer ≤ (a.performAll ops).capacity := by
  induction ops generalizing a with
  | nil => exact ⟨rfl, h⟩
  | cons op rest ih =>
      have hrest := ih (perform_stackPointer_le op h)
      exact ⟨hrest.1.trans (perform_capacity op a), hrest.2⟩

/-- After any requests to a fresh arena, the arena has the capacity that it was made with, its
stack pointer lies inside it, and it holds the bytes of the map after the same requests.
The next request is fulfilled exactly if all its ranges end inside the arena, at words, and
there is room for the bytes that it takes; then it brings back and leaves behind what it
does for the map.  Otherwise it is refused for the first range that does not, or for want
of room, and changes nothing. -/
theorem performAll_represents (capacity : Nat) (ops : List Operation) :
    ((empty capacity).performAll ops).capacity = capacity ∧
    ((empty capacity).performAll ops).stackPointer ≤ capacity ∧
    ((empty capacity).performAll ops).Represents ((ByteMap.empty capacity).stepAll ops) ∧
    ∀ op, ((empty capacity).performAll ops).Follows ((ByteMap.empty capacity).stepAll ops) op
      (perform op ((empty capacity).performAll ops)) := by
  rcases performAll_bounds (a := empty capacity) ops (Nat.zero_le _) with ⟨hcapacity, hpointer⟩
  have hsize := hcapacity.trans Array.size_replicate
  have hrepresents := (Represents.empty capacity).performAll ops
  exact ⟨hsize, Nat.le_trans hpointer (Nat.le_of_eq hsize), hrepresents, hrepresents.perform⟩

-- A copy onto a part of its own source.
example : ((empty 6).performAll [.write 0 [1, 2, 3, 4], .copy ⟨0, 4⟩ 2]).cells =
    #[1, 2, 1, 2, 3, 4] := by decide

end Sequences

end Arena
end FrameMachine
