import MinNT.Lib.ByteMemory

/-! Writes to memory as data: what is left of a memory after a list of them, and
which addresses they reach. -/

namespace WriteLog

/-- `count` bytes put to `offset`. -/
structure Write where
  offset : Nat
  count : Nat
  byte : Nat → UInt8

def zeros (offset count : Nat) : Write := ⟨offset, count, fun _ => 0⟩

def bytes (offset : Nat) (data : List UInt8) : Write :=
  ⟨offset, data.length, fun index => data.getD index 0⟩

def Write.Covers (write : Write) (address : Nat) : Prop :=
  write.offset ≤ address ∧ address < write.offset + write.count

instance (write : Write) (address : Nat) : Decidable (write.Covers address) :=
  inferInstanceAs (Decidable (_ ∧ _))

def put (memory : ByteMemory) (write : Write) : ByteMemory :=
  fun address =>
    if write.Covers address then write.byte (address - write.offset) else memory address

def replay (memory : ByteMemory) (writes : List Write) : ByteMemory :=
  writes.foldl put memory

theorem replay_cons (memory : ByteMemory) (write : Write) (writes : List Write) :
    replay memory (write :: writes) = replay (put memory write) writes := rfl

theorem replay_append (memory : ByteMemory) (first second : List Write) :
    replay memory (first ++ second) = replay (replay memory first) second :=
  List.foldl_append

theorem put_bytes (memory : ByteMemory) (offset : Nat) (data : List UInt8) :
    put memory (bytes offset data) = memory.write offset data := rfl

variable {writes : List Write}

theorem replay_uncovered {memory : ByteMemory} {address : Nat}
    (uncovered : ¬ ∃ write ∈ writes, write.Covers address) :
    replay memory writes address = memory address := by
  induction writes generalizing memory with
  | nil => rfl
  | cons write writes ih =>
    rw [replay_cons, ih (fun covered => uncovered (by
      obtain ⟨other, member, covers⟩ := covered
      exact ⟨other, List.mem_cons_of_mem _ member, covers⟩))]
    exact if_neg (fun covers => uncovered ⟨write, List.mem_cons_self, covers⟩)

theorem load_replay_below {memory : ByteMemory} {width address : Nat}
    (above : ∀ write ∈ writes, address + width ≤ write.offset) :
    (replay memory writes).load width address = memory.load width address := by
  apply ByteMemory.load_congr
  intro index _ below
  apply replay_uncovered
  intro covered
  obtain ⟨write, member, covers⟩ := covered
  exact absurd covers.1 (Nat.not_le.mpr (Nat.lt_of_lt_of_le below (above write member)))

theorem replay_covered {address : Nat} (covered : ∃ write ∈ writes, write.Covers address) :
    ∃ byte, ∀ memory, replay memory writes address = byte := by
  induction writes with
  | nil => simp at covered
  | cons write writes ih =>
    by_cases later : ∃ other ∈ writes, other.Covers address
    · obtain ⟨byte, known⟩ := ih later
      exact ⟨byte, fun memory => known (put memory write)⟩
    · obtain ⟨first, member, covers⟩ := covered
      rcases List.mem_cons.mp member with rfl | behind
      · refine ⟨first.byte (address - first.offset), fun memory => ?_⟩
        rw [replay_cons, replay_uncovered later]
        exact if_pos covers
      · exact absurd ⟨first, behind, covers⟩ later

/-- No address at or behind `bound` is written. -/
def Within (bound : Nat) (writes : List Write) : Prop :=
  ∀ write ∈ writes, ∀ address, write.Covers address → address < bound

theorem within_of_end {bound : Nat}
    (ends : ∀ write ∈ writes, write.offset + write.count ≤ bound) : Within bound writes :=
  fun write member _ covers => Nat.lt_of_lt_of_le covers.2 (ends write member)

end WriteLog
