import AnkiDrive.HashTables
import Mathlib.Data.List.Find

/-! Runs of additions and deletions: whatever the hash function, the table is a finite map
from keys to elements that remembers the order of insertion. -/
namespace AnkiDrive
open CModel

variable {hh : Handles} {items chain : List Ptr} {p : Ptr} {u u' : Uthash}
  {hashFcn : List UInt8 → UInt32} {bs : List HashBucket} {steps : Nat}

theorem hashFind_held (held : Held hashFcn u items)
    (keys : (items.map fun p => (u.hh p).key).Nodup) (key : List UInt8) :
    u.hashFind hashFcn key = .ok (items.find? fun p => (u.hh p).key = key) := by
  unfold Held at held
  split at held
  · rename_i empty
    subst empty
    simp only [Uthash.hashFind, held, List.find?_nil]
  · rename_i holding
    obtain ⟨chains, filed⟩ := held.stacked.filed
    have inside : hashToBkt (hashFcn key) u.tbl.numBuckets < u.tbl.numBuckets :=
      hashToBkt_lt _ held.stacked.power
    have short := filed.length_chain_le inside
    have searched := hashFindInBkt_eq key (filed.holds _ inside).linked.path
      (held.counted.symm ▸ short)
    have unique : {p ∈ chains (hashToBkt (hashFcn key) u.tbl.numBuckets) |
        decide ((u.hh p).key = key) = true}.Subsingleton := by
      rintro a ⟨left, first⟩ b ⟨right, second⟩
      apply List.inj_on_of_nodup_map keys ((filed.mem_chain inside).mp left).1
        ((filed.mem_chain inside).mp right).1
      exact (of_decide_eq_true first).trans (of_decide_eq_true second).symm
    have same : ∀ p ∈ items, (decide (decide (bktOf u.hh u.tbl.numBuckets p =
        hashToBkt (hashFcn key) u.tbl.numBuckets) = true ∧ decide ((u.hh p).key = key) = true)) =
        decide ((u.hh p).key = key) := by
      intro p on
      by_cases here : (u.hh p).key = key
      · simp [here, bktOf, held.hashed p on]
      · simp [here]
    have first := held.apps.head_eq
    obtain ⟨a, as, split⟩ := List.exists_cons_of_ne_nil holding
    have head : u.head = some a := by rw [first, split, List.head?_cons]
    simp only [Uthash.hashFind, head]
    rw [searched, List.find?_eq_find?_of_perm (filed.members _ inside) unique, List.find?_filter,
      List.find?_congr same]

theorem hashFsck_chain {l : Links Ptr} {before start last : Option Ptr} (count : Nat)
    (segment : l.Segment before start chain last none) (enough : chain.length ≤ steps) :
    Uthash.hashFsck.chain l steps before start count = .ok (count + chain.length) := by
  induction chain generalizing before start steps count with
  | nil =>
    obtain ⟨-, rfl⟩ := segment
    cases steps <;> rfl
  | cons p chain ih =>
    obtain ⟨rfl, front, rest⟩ := segment
    cases steps with
    | zero => simp at enough
    | succ steps =>
      have later := ih (count + 1) rest (Nat.le_of_succ_le_succ enough)
      unfold Uthash.hashFsck.chain
      rw [if_neg (not_not.mpr front.symm), later, List.length_cons, Nat.add_right_comm,
        Nat.add_assoc]

theorem hashFsck_buckets (count : Nat)
    (held : ∀ b ∈ bs, ∃ chain, BucketHolds hh b chain ∧ chain.length ≤ steps) :
    Uthash.hashFsck.buckets hh steps bs count = .ok (count + countSum bs) := by
  induction bs generalizing count with
  | nil => rfl
  | cons b bs ih =>
    obtain ⟨chain, ⟨linked, counted⟩, short⟩ := held b List.mem_cons_self
    have walked := hashFsck_chain 0 linked short
    rw [Nat.zero_add, ← counted] at walked
    have rest := ih (count + b.count) fun c inside => held c (List.mem_cons_of_mem b inside)
    have total : count + countSum (b :: bs) = count + b.count + countSum bs := by
      simp only [countSum, List.map_cons, List.sum_cons, Nat.add_assoc]
    unfold Uthash.hashFsck.buckets
    rw [walked, total, ← rest]
    exact if_neg (not_not.mpr rfl)

theorem hashFsck_held (held : Held hashFcn u items) : u.hashFsck = .ok () := by
  unfold Held at held
  split at held
  · simp only [Uthash.hashFsck, held]
  · rename_i holding
    obtain ⟨chains, filed⟩ := held.stacked.filed
    have total := filed.countSum_eq held.stacked.power
    have first := held.apps.head_eq
    obtain ⟨a, as, split⟩ := List.exists_cons_of_ne_nil holding
    have head : u.head = some a := by rw [first, split, List.head?_cons]
    have buckets := @hashFsck_buckets u.hh u.tbl.buckets u.tbl.numItems 0 fun b inside => by
      obtain ⟨i, within, rfl⟩ := (mem_buckets_iff _).mp inside
      have below := filed.length ▸ within
      exact ⟨chains i, filed.holds i below, held.counted.symm ▸ filed.length_chain_le below⟩
    have order := hashFsck_chain 0 held.apps (Nat.le_of_eq held.counted.symm)
    rw [Nat.zero_add, total, ← held.counted] at buckets
    rw [Nat.zero_add, ← held.counted, head] at order
    simp only [Uthash.hashFsck, head]
    rw [buckets]
    simp only [bind, Except.bind, ne_eq, not_true, if_false, order]

/-- A change of the table; `malloc` is the memory there is at it. -/
inductive HashOp where
  | add (p : Ptr) (key : List UInt8) (malloc : Nat → Bool)
  | delete (p : Ptr)

def HashOp.run (hashFcn : List UInt8 → UInt32) (u : Uthash) : HashOp → Except HashStop Uthash
  | add p key malloc => u.hashAddKeyptr hashFcn malloc key p
  | delete p => .ok (u.hashDelete p)

def hashRun (hashFcn : List UInt8 → UInt32) : Uthash → List HashOp → Except HashStop Uthash
  | u, [] => .ok u
  | u, op :: ops => do
    let u ← op.run hashFcn u
    hashRun hashFcn u ops

/-- The finite map that a table stands for: the elements and their keys, in the order of
insertion. -/
abbrev HashMap := List (Ptr × List UInt8)

def HashMap.change (m : HashMap) : HashOp → HashMap
  | .add p key _ => m ++ [(p, key)]
  | .delete p => m.filter fun e => e.1 != p

def HashMap.after (m : HashMap) (ops : List HashOp) : HashMap := ops.foldl HashMap.change m

def HashMap.find (m : HashMap) (key : List UInt8) : Option Ptr :=
  (m.find? fun e => e.2 = key).map Prod.fst

/-- What the table asks of its user: an element is added once, under a new key, and deleted
only while it is in. -/
def HashMap.Takes (m : HashMap) : HashOp → Prop
  | .add p key malloc => p ∉ m.map Prod.fst ∧ key ∉ m.map Prod.snd ∧ Scarce malloc
  | .delete p => p ∈ m.map Prod.fst

def HashMap.TakesAll : HashMap → List HashOp → Prop
  | _, [] => True
  | m, op :: ops => m.Takes op ∧ (m.change op).TakesAll ops

/-- The table stands for the map. -/
structure Stands (hashFcn : List UInt8 → UInt32) (u : Uthash) (m : HashMap) : Prop where
  held : Held hashFcn u (m.map Prod.fst)
  keyed : ∀ e ∈ m, (u.hh e.1).key = e.2
  keys : (m.map Prod.snd).Nodup

variable {m : HashMap} {op : HashOp} {ops : List HashOp}

theorem Stands.keys_eq (stands : Stands hashFcn u m) :
    (m.map Prod.fst).map (fun p => (u.hh p).key) = m.map Prod.snd := by
  rw [List.map_map]
  exact List.map_congr_left fun e inside => stands.keyed e inside

theorem Stands.distinct (stands : Stands hashFcn u m) : (m.map Prod.fst).Nodup := by
  have keys := stands.keys
  rw [← stands.keys_eq] at keys
  exact List.Nodup.of_map _ keys

theorem Stands.find (stands : Stands hashFcn u m) (key : List UInt8) :
    u.hashFind hashFcn key = .ok (m.find key) := by
  have keys := stands.keys_eq.symm ▸ stands.keys
  rw [hashFind_held stands.held keys, HashMap.find, List.find?_map]
  congr 2
  apply List.find?_congr
  intro e inside
  simp only [Function.comp_apply, stands.keyed e inside]

theorem stands_nil (empty : u.head = none) : Stands hashFcn u [] :=
  ⟨empty, fun _ inside => absurd inside List.not_mem_nil, List.nodup_nil⟩

def Refused (op : HashOp) (ran : Except HashStop Uthash) : Prop :=
  ∃ size p key malloc, op = .add p key malloc ∧ malloc size = false ∧
    ran = .error (.outOfMemory size)

theorem Stands.step (stands : Stands hashFcn u m) (takes : m.Takes op) :
    Refused op (op.run hashFcn u) ∨
      ∃ u', op.run hashFcn u = .ok u' ∧ Stands hashFcn u' (m.change op) := by
  cases op with
  | add p key malloc =>
    obtain ⟨unheld, unused, scarce⟩ := takes
    have distinct : (m.map Prod.fst ++ [p]).Nodup :=
      List.concat_eq_append ▸ (List.nodup_concat _ p).mpr ⟨unheld, stands.distinct⟩
    rcases hashAddKeyptr_cases stands.held distinct scarce with
      ⟨size, ran, refused⟩ | ⟨u', ran, held, own, others⟩
    · exact Or.inl ⟨size, p, key, malloc, rfl, refused, ran⟩
    · refine Or.inr ⟨u', ran, ?_, ?_, ?_⟩
      · simpa [HashMap.change] using held
      · intro e inside
        rcases List.mem_append.mp inside with old | new
        · have other : e.1 ≠ p := fun same => unheld (same ▸ List.mem_map_of_mem old)
          exact (others e.1 other).trans (stands.keyed e old)
        · obtain rfl := List.mem_singleton.mp new
          exact own
      · simp only [HashMap.change, List.map_append, List.map_cons, List.map_nil]
        exact List.concat_eq_append ▸ (List.nodup_concat _ key).mpr ⟨unused, stands.keys⟩
  | delete p =>
    obtain ⟨held, keys⟩ := hashDelete_held stands.held takes
    refine Or.inr ⟨u.hashDelete p, rfl, ?_, ?_, ?_⟩
    · have erased : (m.map Prod.fst).erase p = (m.change (.delete p)).map Prod.fst := by
        rw [List.Nodup.erase_eq_filter stands.distinct, List.filter_map]
        rfl
      exact erased ▸ held
    · intro e inside
      exact (keys e.1).trans (stands.keyed e (List.mem_of_mem_filter inside))
    · exact stands.keys.sublist (List.filter_sublist.map _)

theorem stands_run (stands : Stands hashFcn u m) (takes : m.TakesAll ops) :
    (∃ op ∈ ops, Refused op (hashRun hashFcn u ops)) ∨
      ∃ u', hashRun hashFcn u ops = .ok u' ∧ Stands hashFcn u' (m.after ops) := by
  induction ops generalizing u m with
  | nil => exact Or.inr ⟨u, rfl, stands⟩
  | cons op ops ih =>
    rcases stands.step takes.1 with ⟨size, p, key, malloc, rfl, refused, ran⟩ | ⟨u₁, ran, stands₁⟩
    · refine Or.inl ⟨_, List.mem_cons_self, size, p, key, malloc, rfl, refused, ?_⟩
      simp only [hashRun, ran, bind, Except.bind]
    · have rest : hashRun hashFcn u (op :: ops) = hashRun hashFcn u₁ ops := by
        simp only [hashRun, ran, bind, Except.bind]
      rw [rest]
      rcases ih stands₁ takes.2 with ⟨op', inside, refused⟩ | later
      · exact Or.inl ⟨op', List.mem_cons_of_mem op inside, refused⟩
      · exact Or.inr later

/-- Two additions and a deletion, with less than 32 GiB of memory and `HASH_JEN`. -/
def threeChanges : List HashOp := [
  .add 1 [1, 2, 3, 4, 5, 6] fun size => size < 0x800000000,
  .add 2 [6, 5, 4, 3, 2, 1] fun size => size < 0x800000000,
  .delete 1]

theorem takesAll_threeChanges : HashMap.TakesAll [] threeChanges :=
  ⟨⟨by decide, by decide, rfl⟩, ⟨by decide, by decide, rfl⟩, List.mem_cons_self, trivial⟩

def noTable : Uthash := Uthash.null fun _ => ⟨none, none, none, none, [], 0⟩

/-- A run with `HASH_DEBUG`: `HASH_FSCK` behind every change. -/
def hashRunDebug (hashFcn : List UInt8 → UInt32) : Uthash → List HashOp →
    Except HashStop Uthash
  | u, [] => .ok u
  | u, op :: ops => do
    let u ← op.run hashFcn u
    u.hashFsck
    hashRunDebug hashFcn u ops

theorem Stands.runDebug (stands : Stands hashFcn u m) (takes : m.TakesAll ops) :
    hashRunDebug hashFcn u ops = hashRun hashFcn u ops := by
  induction ops generalizing u m with
  | nil => rfl
  | cons op ops ih =>
    rcases stands.step takes.1 with ⟨size, p, key, malloc, -, -, ran⟩ | ⟨u₁, ran, stands₁⟩
    · simp only [hashRun, hashRunDebug, ran, bind, Except.bind]
    · simp only [hashRun, hashRunDebug, ran, bind, Except.bind, hashFsck_held stands₁.held]
      exact ih stands₁ takes.2

/-- The integrity check never fires. -/
theorem hashRun_fsck (start : u.head = none) (takes : HashMap.TakesAll [] ops) :
    hashRunDebug hashFcn u ops = hashRun hashFcn u ops :=
  (stands_nil start).runDebug takes

theorem hashRun_fsck_threeChanges :
    hashRunDebug hashJen noTable threeChanges = hashRun hashJen noTable threeChanges :=
  hashRun_fsck rfl takesAll_threeChanges

/-- While expansion is not inhibited, a table has at most twenty items for each bucket, and no
chain is longer than what its bucket waits for. -/
theorem hashRun_roomy (start : u.head = none) (takes : HashMap.TakesAll [] ops)
    (ran : hashRun hashFcn u ops = .ok u') (table : u'.head ≠ none)
    (going : u'.tbl.noexpand ≠ 1) :
    u'.tbl.numItems ≤ 20 * u'.tbl.numBuckets ∧ ∀ b ∈ u'.tbl.buckets, b.count ≤ b.threshold := by
  rcases stands_run (stands_nil start) takes with ⟨_, _, _, _, _, _, _, _, stopped⟩ | ⟨u₁, ran', stands⟩
  · rw [ran] at stopped
    cases stopped
  · rw [ran] at ran'
    cases ran'
    have held := stands.held
    unfold Held at held
    split at held
    · exact absurd held table
    · obtain ⟨chains, filed⟩ := held.stacked.filed
      have fits := held.stacked.roomy.fits going
      have mults := held.stacked.roomy.mults going
      have total := (countSum_le fits).1
      rw [filed.countSum_eq held.stacked.power, ← held.counted, filed.length] at total
      exact ⟨by omega, fun b inside => (fits b inside).within⟩

theorem hashRun_roomy_threeChanges : ∃ u, hashRun hashJen noTable threeChanges = .ok u ∧
    u.tbl.numItems ≤ 20 * u.tbl.numBuckets ∧ ∀ b ∈ u.tbl.buckets, b.count ≤ b.threshold := by
  have ran : ∃ u, hashRun hashJen noTable threeChanges = .ok u ∧ u.head ≠ none ∧
      u.tbl.noexpand ≠ 1 := ⟨_, rfl, by decide, by decide⟩
  obtain ⟨u, ran, table, going⟩ := ran
  exact ⟨u, ran, hashRun_roomy rfl takesAll_threeChanges ran table going⟩

end AnkiDrive
