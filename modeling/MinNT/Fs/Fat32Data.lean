import MinNT.Fs.Fat32Chain

namespace MinNT.Fat32

open ByteMemory Chain List

/-- The bytes in the clusters of a chain. -/
def chainBytes (v : Volume) (cells : List Nat) : List UInt8 := cells.flatMap (clusterBytes v)

variable {v : Volume} {cells : List Nat}

theorem Geometry.clusterBytes_length (geometry : Geometry v) (cluster : Nat) :
    (clusterBytes v cluster).length = v.bytesPerCluster := by
  rw [Fat32.clusterBytes_length, geometry.cluster]

theorem walkChain_eq (geometry : Geometry v)
    {start fuel : Nat} (existing prev : Nat) (chain : ChainOf v start cells)
    (enough : cells.length < fuel) (small : existing + cells.length < 2 ^ 32) :
    walkChain v fuel start existing prev =
      some (existing + cells.length, (cells.getLast?).getD prev) := by
  have numbers := geometry.numbers
  induction cells generalizing start fuel existing prev with
  | nil =>
    obtain ⟨fuel, rfl⟩ : ∃ more, fuel = more + 1 := ⟨fuel - 1, by simp at enough; omega⟩
    have ends : chainEnd ≤ start := chain.linked
    rw [walkChain, if_neg (by omega)]
    rfl
  | cons cluster cells ih =>
    obtain ⟨fuel, rfl⟩ : ∃ more, fuel = more + 1 := ⟨fuel - 1, by simp at enough; omega⟩
    have inside := chain.inside cluster mem_cons_self
    obtain rfl : start = cluster := chain.linked.1
    rw [length_cons] at enough small
    rw [walkChain, if_pos ⟨by omega, inside.1⟩, Nat.mod_eq_of_lt (by omega),
      ih _ _ chain.tail (by omega) (by omega), length_cons, getLast?_cons, Option.getD_some]
    congr 2
    omega

/-- One turn of the loop writes one cluster. -/
theorem writeClusters_step {v : Volume} (geometry : Geometry v) {room : Nat → Bool}
    {data : List UInt8} {cells : List Nat} {start fuel written : Nat}
    (chain : ChainOf v start (start :: cells)) (granted : room written = true)
    (unfinished : written < data.length) (enough : 0 < fuel) :
    ∃ v', writeClusters room data (fuel + 1) v start written =
        writeClusters room data fuel v' (fat32GetFatEntry v' start)
          (written + min (data.length - written) v.bytesPerCluster) ∧
      v'.fatCache = v.fatCache ∧ Changes v v' [] [start] ∧
      clusterBytes v' start = (data.drop written).take v.bytesPerCluster ++
        replicate (v.bytesPerCluster - (data.length - written)) 0 := by
  have inside := chain.inside start mem_cons_self
  have numbers := geometry.numbers
  have chunk : (data.drop written).take (min (data.length - written) v.bytesPerCluster) =
      (data.drop written).take v.bytesPerCluster := by
    rw [take_eq_take_iff, length_drop]
    omega
  have padding : v.bytesPerCluster - min (data.length - written) v.bytesPerCluster =
      v.bytesPerCluster - (data.length - written) := by omega
  have length : ((data.drop written).take v.bytesPerCluster ++
      replicate (v.bytesPerCluster - (data.length - written)) 0).length =
      v.sectorsPerCluster * 512 := by
    rw [← geometry.cluster, length_append, length_take, length_drop, length_replicate]
    omega
  obtain ⟨v', done, cache, changes, now⟩ := fat32WriteCluster_changes inside.1 length
  refine ⟨v', ?_, cache, changes, now⟩
  have chain' : ChainOf v' start (start :: cells) :=
    chain.changes changes (fun _ _ => not_mem_nil)
  rw [writeClusters, if_pos ⟨unfinished, inside.1, by omega⟩, if_pos granted]
  dsimp only
  rw [chunk, padding, done]
  dsimp only
  rw [if_pos (by decide)]
  rcases chain'.next_cases (changes.geometry geometry) with ⟨rfl, ends⟩ | ⟨proper, before⟩
  · obtain ⟨fuel, rfl⟩ : ∃ more, fuel = more + 1 := ⟨fuel - 1, by omega⟩
    rw [if_pos (.inl ends), writeClusters, if_neg (by omega)]
  · rw [if_neg (by omega)]

theorem take_block {α : Type} (xs ys : List α) (pad : α) (block : Nat)
    (rest : ys.take (xs.length - min xs.length block) = xs.drop (min xs.length block)) :
    (xs.take block ++ replicate (block - xs.length) pad ++ ys).take xs.length = xs := by
  by_cases short : xs.length ≤ block
  · rw [take_of_length_le short, append_assoc, take_left]
  have larger : block ≤ xs.length := by omega
  have none : block - xs.length = 0 := by omega
  have length : (xs.take block).length = block := by
    rw [length_take]
    omega
  rw [Nat.min_eq_right larger] at rest
  rw [none, replicate_zero, append_nil, take_append, length, rest,
    take_of_length_le (by omega), take_append_drop]

/-- A write changes no cluster outside its chain, whatever the pool answers. -/
theorem writeClusters_changes {v : Volume} (geometry : Geometry v) (room : Nat → Bool)
    {data : List UInt8} {cells : List Nat} {start fuel written : Nat}
    (chain : ChainOf v start cells) (enough : cells.length < fuel) :
    ∃ v' status total, writeClusters room data fuel v start written = some (status, total, v') ∧
      ((∀ written, room written = true) → status = statusSuccess) ∧
      v'.fatCache = v.fatCache ∧ Changes v v' [] cells := by
  induction cells generalizing v start fuel written with
  | nil =>
    obtain ⟨fuel, rfl⟩ : ∃ more, fuel = more + 1 := ⟨fuel - 1, by simp at enough; omega⟩
    have ends : chainEnd ≤ start := chain.linked
    refine ⟨v, statusSuccess, written, ?_, fun _ => rfl, rfl, .refl v _ _⟩
    rw [writeClusters, if_neg (by omega)]
  | cons cluster cells ih =>
    obtain ⟨fuel, rfl⟩ : ∃ more, fuel = more + 1 := ⟨fuel - 1, by simp at enough; omega⟩
    rw [length_cons] at enough
    have inside := chain.inside cluster mem_cons_self
    have numbers := geometry.numbers
    obtain rfl : start = cluster := chain.linked.1
    by_cases unfinished : written < data.length
    · cases granted : room written with
      | false =>
        refine ⟨v, statusNoMemory, written, ?_, fun all => ?_, rfl, .refl v _ _⟩
        · rw [writeClusters, if_pos ⟨unfinished, inside.1, by omega⟩, granted]
          rfl
        · rw [all] at granted
          cases granted
      | true =>
        obtain ⟨v₁, step, cache, changes, _⟩ := writeClusters_step geometry chain granted
          unfinished (show 0 < fuel by omega)
        have tail : ChainOf v₁ (fat32GetFatEntry v₁ start) cells := by
          rw [changes.next not_mem_nil]
          exact chain.tail.changes changes (fun _ _ => not_mem_nil)
        obtain ⟨v', status, total, done, success, cache', changes'⟩ :=
          ih (changes.geometry geometry) tail (show cells.length < fuel by omega)
        exact ⟨v', status, total, step.trans done, success, cache'.trans cache,
          (changes.mono (List.Subset.refl _) (by simp)).trans
            (changes'.mono (List.Subset.refl _) (subset_cons_self _ _))⟩
    · refine ⟨v, statusSuccess, written, ?_, fun _ => rfl, rfl, .refl v _ _⟩
      rw [writeClusters, if_neg (by omega)]

/-- A write fills the chain, up to its end or that of the data. -/
theorem writeClusters_eq (geometry : Geometry v) {data : List UInt8} {start fuel written : Nat}
    (chain : ChainOf v start cells) (enough : cells.length < fuel)
    (within : written ≤ data.length) :
    ∃ v' total, writeClusters (fun _ => true) data fuel v start written =
        some (statusSuccess, total, v') ∧
      v'.fatCache = v.fatCache ∧ Changes v v' [] cells ∧
      (data.length - written ≤ cells.length * v.bytesPerCluster →
        total = data.length ∧
        (chainBytes v' cells).take (data.length - written) = data.drop written) := by
  have once := chain.nodup geometry
  induction cells generalizing v start fuel written with
  | nil =>
    obtain ⟨fuel, rfl⟩ : ∃ more, fuel = more + 1 := ⟨fuel - 1, by simp at enough; omega⟩
    have ends : chainEnd ≤ start := chain.linked
    refine ⟨v, written, ?_, rfl, .refl v _ _, ?_⟩
    · rw [writeClusters, if_neg (by omega)]
    · intro fits
      have all : written = data.length := by
        simp only [length_nil, Nat.zero_mul] at fits
        omega
      rw [all, Nat.sub_self, drop_length, take_zero]
      exact ⟨rfl, rfl⟩
  | cons cluster cells ih =>
    obtain ⟨fuel, rfl⟩ : ∃ more, fuel = more + 1 := ⟨fuel - 1, by simp at enough; omega⟩
    rw [length_cons] at enough
    have inside := chain.inside cluster mem_cons_self
    obtain rfl : start = cluster := chain.linked.1
    obtain ⟨alone, onceMore⟩ := nodup_cons.mp once
    by_cases unfinished : written < data.length
    · obtain ⟨v₁, step, cache, changes, here⟩ :=
        @writeClusters_step v geometry (fun _ => true) data cells start fuel written chain rfl
          unfinished (show 0 < fuel by omega)
      have tail : ChainOf v₁ (fat32GetFatEntry v₁ start) cells := by
        rw [changes.next not_mem_nil]
        exact chain.tail.changes changes (fun _ _ => not_mem_nil)
      obtain ⟨v', total, done, cache', changes', contents⟩ := ih (changes.geometry geometry) tail
        (show cells.length < fuel by omega)
        (show written + min (data.length - written) v.bytesPerCluster ≤ data.length by omega)
        onceMore
      rw [changes.bytesPerCluster] at contents
      refine ⟨v', total, step.trans done, cache'.trans cache,
        (changes.mono (by simp) (by simp)).trans
          (changes'.mono (by simp) (subset_cons_self _ _)), ?_⟩
      intro fits
      rw [length_cons, Nat.succ_mul] at fits
      obtain ⟨allWritten, rest⟩ := contents (by omega)
      refine ⟨allWritten, ?_⟩
      have first : clusterBytes v' start = clusterBytes v₁ start :=
        changes'.data start inside.1 alone
      have whole : chainBytes v' (start :: cells) =
          clusterBytes v₁ start ++ chainBytes v' cells := by
        rw [← first]
        rfl
      rw [whole, here, ← length_drop]
      apply take_block
      rw [length_drop, drop_drop, ← rest]
      congr 1
      omega
    · have all : written = data.length := by omega
      refine ⟨v, written, ?_, rfl, .refl v _ _, ?_⟩
      · rw [writeClusters, if_neg (by omega)]
      · intro _
        rw [all, Nat.sub_self, drop_length, take_zero]
        exact ⟨rfl, rfl⟩

theorem Geometry.bytesPerCluster_dvd (geometry : Geometry v) : v.bytesPerCluster ∣ 2 ^ 32 := by
  obtain ⟨shift, small, power⟩ := geometry.power
  refine ⟨2 ^ (23 - shift), ?_⟩
  have exponent : 2 ^ 32 = 2 ^ shift * 2 ^ 9 * 2 ^ (23 - shift) := by
    rw [← Nat.pow_add, ← Nat.pow_add]
    congr 1
    omega
  rw [geometry.cluster, power]
  exact exponent

theorem Geometry.bytesPerCluster_pos (geometry : Geometry v) : 0 < v.bytesPerCluster := by
  rw [geometry.cluster]
  exact Nat.mul_pos geometry.positive (by decide)

variable {start fuel copied : Nat}

theorem readClusters_step (geometry : Geometry v) {readSize : Nat} {buffer : ByteMemory}
    (chain : ChainOf v start (start :: cells)) (unfinished : copied < readSize) :
    readClusters v readSize (fuel + 1) start copied buffer =
      let copy :=
        if (copied + v.bytesPerCluster) % 2 ^ 32 > readSize then readSize - copied
        else v.bytesPerCluster
      readClusters v readSize fuel (fat32GetFatEntry v start) ((copied + copy) % 2 ^ 32)
        (buffer.write copied ((clusterBytes v start).take copy)) := by
  have inside := chain.inside start mem_cons_self
  have numbers := geometry.numbers
  rw [readClusters, if_pos ⟨inside.1, by omega, unfinished⟩, fat32ReadCluster_eq inside.1]

theorem readClusters_end {readSize start fuel copied : Nat} {buffer : ByteMemory}
    (ended : chainEnd ≤ start ∨ readSize ≤ copied) (enough : 0 < fuel) :
    readClusters v readSize fuel start copied buffer = some ⟨statusSuccess, copied, buffer⟩ := by
  obtain ⟨fuel, rfl⟩ : ∃ more, fuel = more + 1 := ⟨fuel - 1, by omega⟩
  rw [readClusters, if_neg (by omega)]

theorem take_cluster {α : Type} {block rest : List α} {size copy more : Nat}
    (length : block.length = size) (whole : copy = size ∨ copy < size ∧ more = 0) :
    (block ++ rest).take (copy + more) = block.take copy ++ rest.take more := by
  rw [take_append, length]
  rcases whole with rfl | ⟨short, rfl⟩
  · rw [Nat.add_sub_cancel_left, take_of_length_le (show block.length ≤ copy + more by omega),
      take_of_length_le (show block.length ≤ copy by omega)]
  · have none : copy + 0 - size = 0 := by omega
    rw [none, Nat.add_zero]

/-- A read of a chain that is long enough gives its bytes. -/
theorem readClusters_eq (geometry : Geometry v) {readSize : Nat} (buffer : ByteMemory)
    (chain : ChainOf v start cells) (enough : cells.length < fuel) (within : copied ≤ readSize)
    (noWrap : readSize + v.bytesPerCluster ≤ 2 ^ 32)
    (covers : readSize - copied ≤ cells.length * v.bytesPerCluster) :
    ∃ after, readClusters v readSize fuel start copied buffer =
        some ⟨statusSuccess, readSize, after⟩ ∧
      after.read copied (readSize - copied) = (chainBytes v cells).take (readSize - copied) ∧
      ∀ index, index < copied → after index = buffer index := by
  induction cells generalizing start fuel copied buffer with
  | nil =>
    have all : copied = readSize := by
      simp only [length_nil, Nat.zero_mul] at covers
      omega
    subst all
    refine ⟨buffer, readClusters_end (.inr (Nat.le_refl _)) (by simpa using enough), ?_,
      fun _ _ => rfl⟩
    rw [Nat.sub_self, take_zero, read_zero]
  | cons cluster cells ih =>
    obtain rfl : start = cluster := chain.linked.1
    rw [length_cons] at enough
    by_cases unfinished : copied < readSize
    · obtain ⟨fuel, rfl⟩ : ∃ more, fuel = more + 1 := ⟨fuel - 1, by omega⟩
      have copyEq : (if (copied + v.bytesPerCluster) % 2 ^ 32 > readSize then readSize - copied
          else v.bytesPerCluster) = min v.bytesPerCluster (readSize - copied) := by
        rw [Nat.mod_eq_of_lt (by omega)]
        split
        · omega
        · omega
      rw [readClusters_step geometry chain unfinished]
      dsimp only
      rw [copyEq]
      obtain ⟨copy, known⟩ : ∃ copy, copy = min v.bytesPerCluster (readSize - copied) := ⟨_, rfl⟩
      rw [← known]
      have advanced : (copied + copy) % 2 ^ 32 = copied + copy := Nat.mod_eq_of_lt (by omega)
      have left : readSize - (copied + copy) ≤ cells.length * v.bytesPerCluster := by
        rw [length_cons, Nat.succ_mul] at covers
        omega
      rw [advanced]
      obtain ⟨after, done, contents, before⟩ := ih
        (buffer.write copied ((clusterBytes v start).take copy)) chain.tail
        (show cells.length < fuel by omega) (show copied + copy ≤ readSize by omega) left
      have taken : ((clusterBytes v start).take copy).length = copy := by
        rw [length_take, geometry.clusterBytes_length]
        omega
      refine ⟨after, done, ?_, ?_⟩
      · have here : after.read copied copy = (clusterBytes v start).take copy := by
          have same := read_write_same buffer copied ((clusterBytes v start).take copy)
          rw [taken] at same
          rw [← same]
          apply read_congr
          intro index _ upper
          exact before index upper
        have whole : chainBytes v (start :: cells) = clusterBytes v start ++ chainBytes v cells :=
          rfl
        have parts : readSize - copied = copy + (readSize - (copied + copy)) := by omega
        rw [parts, read_append, here, contents, whole]
        exact (take_cluster (geometry.clusterBytes_length start) (by omega)).symm
      · intro index lower
        rw [before index (by omega), write_outside _ _ _ _ (.inl lower)]
    · have all : copied = readSize := by omega
      subst all
      refine ⟨buffer, readClusters_end (.inr (Nat.le_refl _)) (by omega), ?_, fun _ _ => rfl⟩
      rw [Nat.sub_self, take_zero, read_zero]

theorem Geometry.room (geometry : Geometry v) {size : Nat} (small : size < 2 ^ 32)
    (whole : v.bytesPerCluster ∣ size) : size + v.bytesPerCluster ≤ 2 ^ 32 := by
  obtain ⟨count, limit⟩ := geometry.bytesPerCluster_dvd
  obtain ⟨used, rfl⟩ := whole
  have fewer : used < count := by
    rw [limit] at small
    exact Nat.lt_of_mul_lt_mul_left small
  rw [limit, ← Nat.mul_succ]
  exact Nat.mul_le_mul_left _ fewer

/-- Beyond that the number of bytes wraps around, and the loop goes on to the end
of the chain. -/
theorem readClusters_wraps (geometry : Geometry v) {readSize : Nat} (buffer : ByteMemory)
    (chain : ChainOf v start cells)
    (enough : cells.length < fuel) (large : 2 ^ 32 < readSize + v.bytesPerCluster)
    (small : copied < 2 ^ 32) (whole : v.bytesPerCluster ∣ copied) :
    ∃ after, readClusters v readSize fuel start copied buffer =
      some ⟨statusSuccess, (copied + cells.length * v.bytesPerCluster) % 2 ^ 32, after⟩ := by
  induction cells generalizing start fuel copied buffer with
  | nil =>
    have ends : chainEnd ≤ start := chain.linked
    refine ⟨buffer, ?_⟩
    rw [readClusters_end (.inl ends) (by simpa using enough), length_nil, Nat.zero_mul,
      Nat.add_zero, Nat.mod_eq_of_lt small]
  | cons cluster cells ih =>
    obtain rfl : start = cluster := chain.linked.1
    rw [length_cons] at enough
    obtain ⟨fuel, rfl⟩ : ∃ more, fuel = more + 1 := ⟨fuel - 1, by omega⟩
    have room := geometry.room small whole
    have again : v.bytesPerCluster ∣ (copied + v.bytesPerCluster) % 2 ^ 32 :=
      (Nat.dvd_mod_iff geometry.bytesPerCluster_dvd).mpr (Nat.dvd_add whole (Nat.dvd_refl _))
    have next := geometry.room (Nat.mod_lt _ (by decide)) again
    have fits : ¬ (copied + v.bytesPerCluster) % 2 ^ 32 > readSize := by omega
    rw [readClusters_step geometry chain (by omega)]
    dsimp only
    rw [if_neg fits]
    obtain ⟨after, done⟩ := ih _ chain.tail (show cells.length < fuel by omega)
      (Nat.mod_lt _ (by decide)) again
    refine ⟨after, done.trans ?_⟩
    rw [Nat.mod_add_mod, length_cons, Nat.succ_mul]
    congr 3
    omega

/-- A read does not see changes outside its chain. -/
theorem readClusters_congr {v v' : Volume} {entries clusters cells : List Nat}
    (geometry : Geometry v) (changes : Changes v v' entries clusters) {readSize start : Nat}
    (chain : ChainOf v start cells) (apart : ∀ cluster ∈ cells, cluster ∉ entries)
    (apart' : ∀ cluster ∈ cells, cluster ∉ clusters) (fuel copied : Nat) (buffer : ByteMemory) :
    readClusters v' readSize fuel start copied buffer =
      readClusters v readSize fuel start copied buffer := by
  induction cells generalizing start fuel copied buffer with
  | nil =>
    have ends : chainEnd ≤ start := chain.linked
    cases fuel with
    | zero => rfl
    | succ fuel =>
      rw [readClusters_end (.inl ends) (Nat.succ_pos _),
        readClusters_end (.inl ends) (Nat.succ_pos _)]
  | cons cluster cells ih =>
    obtain rfl : start = cluster := chain.linked.1
    have inside := chain.inside start mem_cons_self
    cases fuel with
    | zero => rfl
    | succ fuel =>
      by_cases unfinished : copied < readSize
      · have chain' := chain.changes changes apart
        rw [readClusters_step geometry chain unfinished,
          readClusters_step (changes.geometry geometry) chain' unfinished]
        dsimp only
        rw [changes.bytesPerCluster, changes.next (apart start mem_cons_self),
          changes.data start inside.1 (apart' start mem_cons_self)]
        exact ih chain.tail (fun other member => apart other (mem_cons_of_mem _ member))
          (fun other member => apart' other (mem_cons_of_mem _ member)) _ _ _
      · rw [readClusters_end (.inr (by omega)) (Nat.succ_pos _),
          readClusters_end (.inr (by omega)) (Nat.succ_pos _)]

end MinNT.Fat32
