import AnkiDrive.Announce
import AnkiDrive.HashRuns

/-! The scanner on its hash table. The entries are blocks that `malloc` returned, with their
handles in the table, and the scanner prints what it prints with a list of entries. -/
namespace AnkiDrive
open CModel

/-- The contents of the entries, the table over them, and how many there are. The handles lie in
the entries; what uthash keeps in them is told by the table. -/
structure ScanTable where
  vehicles : Ptr → Vehicle
  table : Uthash
  allocated : Nat

/-- The surroundings of the scanner: the hash function, the filter, what a new block holds, where
the blocks lie and the memory that is left for the table. -/
structure Surroundings where
  hashFcn : List UInt8 → UInt32
  filterType : UInt8
  malloc : BdAddr → Memory
  block : Nat → Ptr
  memory : Nat → Nat → Bool

/-- How a report is not handled to its end: a macro stops, or it goes by a handle that a copy
has run into. -/
inductive ScanStop where
  | hash (stop : HashStop)
  | handle
  deriving DecidableEq

namespace Surroundings

variable (w : Surroundings)

def handlesKept (s : ScanTable) : Bool :=
  (List.range s.allocated).all fun i => (s.vehicles (w.block i)).HandleKept w.malloc

/-- `HASH_FIND`, and for a new address a block, `memset`, `memcpy` and `HASH_ADD`. -/
def entryOf (s : ScanTable) (address : BdAddr) : Except ScanStop (Ptr × ScanTable) :=
  if w.handlesKept s then do
    match ← (s.table.hashFind w.hashFcn address.toList).mapError .hash with
    | some v => return (v, s)
    | none =>
      let v := w.block s.allocated
      let table ← (s.table.hashAddKeyptr w.hashFcn (w.memory s.allocated) address.toList
        v).mapError .hash
      return (v, {
        vehicles := Function.update s.vehicles v (Vehicle.new w.malloc address)
        table := table
        allocated := s.allocated + 1 })
  else .error .handle

def report (s : ScanTable) (info : LeAdvertisingInfo) :
    Except ScanStop (ScanTable × Option Announcement) :=
  if checkReportFilter w.filterType info ≠ 0 then do
    let (v, s) ← w.entryOf s info.bdaddr
    let (vehicle, line) := (s.vehicles v).hear info
    return ({ s with vehicles := Function.update s.vehicles v vehicle }, line)
  else .ok (s, none)

/-- Every report beside what is printed at it. -/
def lines : ScanTable → List LeAdvertisingInfo →
    Except ScanStop (List (LeAdvertisingInfo × Option Announcement))
  | _, [] => .ok []
  | s, info :: infos => do
    let (s, line) ← w.report s info
    let rest ← lines s infos
    return (info, line) :: rest

end Surroundings

/-- The list of entries that a table of entries stands for. -/
structure Lists (w : Surroundings) (s : ScanTable) (vehicles : List Vehicle) : Prop where
  stands : Stands w.hashFcn s.table
    ((List.range s.allocated).map fun i => (w.block i, (s.vehicles (w.block i)).address.toList))
  listed : vehicles = (List.range s.allocated).map fun i => s.vehicles (w.block i)
  kept : ∀ i < s.allocated, (s.vehicles (w.block i)).HandleKept w.malloc

variable {w : Surroundings} {s : ScanTable} {vehicles : List Vehicle} {address : BdAddr}

theorem toList_inj {a b : BdAddr} : a.toList = b.toList ↔ a = b := by
  constructor
  · intro same
    apply Vector.toArray_inj.mp
    apply Array.toList_inj.mp
    exact same
  · rintro rfl
    rfl

theorem Lists.find (lists : Lists w s vehicles) (address : BdAddr) :
    ∃ found, s.table.hashFind w.hashFcn address.toList = .ok found ∧
      hashFind vehicles address = found.map s.vehicles ∧
      ∀ v, found = some v → ∃ i < s.allocated, v = w.block i := by
  refine ⟨_, lists.stands.find address.toList, ?_, ?_⟩
  · rw [HashMap.find, hashFind, lists.listed, List.find?_map, List.find?_map, Option.map_map,
      Option.map_map]
    simp only [Function.comp_def, toList_inj]
  · intro v found
    simp only [HashMap.find, List.find?_map, Option.map_map, Option.map_eq_some_iff] at found
    obtain ⟨i, found, rfl⟩ := found
    exact ⟨i, List.mem_range.mp (List.mem_of_find?_eq_some found), rfl⟩

theorem hashStore_map {is : List Nat} {f : Nat → Vehicle} {i : Nat} {v : Vehicle}
    (keys : (is.map fun j => (f j).address).Nodup) (on : i ∈ is) (same : (f i).address = v.address) :
    hashStore (is.map f) v = is.map (Function.update f i v) := by
  induction is with
  | nil => cases on
  | cons j is ih =>
    obtain ⟨fresh, keys⟩ := List.nodup_cons.mp keys
    simp only [List.map_cons, hashStore]
    by_cases here : (f j).address = v.address
    · have first : i = j := by
        rcases List.mem_cons.mp on with first | later
        · exact first
        · exact absurd (List.mem_map.mpr ⟨i, later, same.trans here.symm⟩) fresh
      subst first
      have rest : ∀ k ∈ is, Function.update f i v k = f k := by
        intro k later
        apply Function.update_of_ne
        rintro rfl
        exact fresh (List.mem_map.mpr ⟨k, later, rfl⟩)
      rw [if_pos here, Function.update_self, List.map_congr_left rest]
    · have other : j ≠ i := by
        rintro rfl
        exact here same
      have later : i ∈ is := (List.mem_cons.mp on).resolve_left other.symm
      rw [if_neg here, ih keys later, Function.update_of_ne other]

theorem Lists.store {i : Nat} {v : Vehicle} (lists : Lists w s vehicles)
    (apart : Function.Injective w.block) (inside : i < s.allocated)
    (same : (s.vehicles (w.block i)).address = v.address) (kept : v.HandleKept w.malloc) :
    Lists w { s with vehicles := Function.update s.vehicles (w.block i) v }
      (hashStore vehicles v) := by
  have moved : ∀ j, Function.update s.vehicles (w.block i) v (w.block j) =
      Function.update (fun j => s.vehicles (w.block j)) i v j := by
    intro j
    by_cases here : j = i
    · subst here
      rw [Function.update_self, Function.update_self]
    · rw [Function.update_of_ne fun equal => here (apart equal), Function.update_of_ne here]
  have addresses : ∀ j, (Function.update s.vehicles (w.block i) v (w.block j)).address =
      (s.vehicles (w.block j)).address := by
    intro j
    rw [moved]
    by_cases here : j = i
    · subst here
      rw [Function.update_self, same]
    · rw [Function.update_of_ne here]
  constructor
  · simp only [addresses]
    exact lists.stands
  · have keys := lists.stands.keys
    rw [List.map_map] at keys
    have distinct : ((List.range s.allocated).map fun j =>
        (s.vehicles (w.block j)).address).Nodup := by
      apply List.Nodup.of_map Vector.toList
      rw [List.map_map]
      exact keys
    rw [lists.listed, hashStore_map distinct (List.mem_range.mpr inside) same]
    simp only [moved]
  · intro j below
    show (Function.update s.vehicles (w.block i) v (w.block j)).HandleKept w.malloc
    rw [moved]
    by_cases here : j = i
    · subst here
      rw [Function.update_self]
      exact kept
    · rw [Function.update_of_ne here]
      exact lists.kept j below

theorem Lists.handlesKept (lists : Lists w s vehicles) : w.handlesKept s = true := by
  apply List.all_eq_true.mpr
  intro i inside
  exact decide_eq_true (lists.kept i (List.mem_range.mp inside))

theorem block_fresh (apart : Function.Injective w.block) {n i : Nat} (below : i < n) :
    w.block i ≠ w.block n :=
  fun equal => Nat.ne_of_lt below (apart equal)

/-- An address that is not in the list can be added to the table, in the next block. -/
theorem Lists.takes (lists : Lists w s vehicles) (apart : Function.Injective w.block)
    (scarce : ∀ n, Scarce (w.memory n)) (nowhere : hashFind vehicles address = none) :
    HashMap.Takes
      ((List.range s.allocated).map fun i => (w.block i, (s.vehicles (w.block i)).address.toList))
      (.add (w.block s.allocated) address.toList (w.memory s.allocated)) := by
  refine ⟨?_, ?_, scarce s.allocated⟩
  · simp only [List.map_map, List.mem_map, List.mem_range, Function.comp_apply, not_exists, not_and]
    exact fun i below => block_fresh apart below
  · rw [hashFind, lists.listed, List.find?_eq_none] at nowhere
    intro held
    simp only [List.map_map, List.mem_map, Function.comp_apply] at held
    obtain ⟨i, below, equal⟩ := held
    exact nowhere _ (List.mem_map_of_mem below) (decide_eq_true (toList_inj.mp equal))

theorem Lists.added (lists : Lists w s vehicles) (apart : Function.Injective w.block)
    {table : Uthash} (stands : Stands w.hashFcn table
      (((List.range s.allocated).map fun i =>
        (w.block i, (s.vehicles (w.block i)).address.toList)) ++
          [(w.block s.allocated, address.toList)])) :
    Lists w {
        vehicles := Function.update s.vehicles (w.block s.allocated) (Vehicle.new w.malloc address)
        table := table
        allocated := s.allocated + 1 }
      (hashAdd vehicles (Vehicle.new w.malloc address)) := by
  have old : ∀ i ∈ List.range s.allocated, Function.update s.vehicles (w.block s.allocated)
      (Vehicle.new w.malloc address) (w.block i) = s.vehicles (w.block i) :=
    fun i below => Function.update_of_ne (block_fresh apart (List.mem_range.mp below)) _ _
  constructor
  · simp only [List.range_succ, List.map_append, List.map_cons, List.map_nil,
      Function.update_self]
    have entries : ((List.range s.allocated).map fun i => (w.block i,
        (Function.update s.vehicles (w.block s.allocated) (Vehicle.new w.malloc address)
          (w.block i)).address.toList)) =
        (List.range s.allocated).map fun i =>
          (w.block i, (s.vehicles (w.block i)).address.toList) :=
      List.map_congr_left fun i below => by rw [old i below]
    rw [entries]
    exact stands
  · simp only [List.range_succ, List.map_append, List.map_cons, List.map_nil,
      Function.update_self, hashAdd]
    rw [List.map_congr_left old, ← lists.listed]
  · intro i below
    show (Function.update s.vehicles (w.block s.allocated) (Vehicle.new w.malloc address)
      (w.block i)).HandleKept w.malloc
    rcases Nat.lt_succ_iff_lt_or_eq.mp below with before | rfl
    · rw [old i (List.mem_range.mpr before)]
      exact lists.kept i before
    · rw [Function.update_self]
      exact new_handleKept w.malloc address

theorem Lists.entryOf (lists : Lists w s vehicles) (apart : Function.Injective w.block)
    (scarce : ∀ n, Scarce (w.memory n)) (address : BdAddr) :
    (∃ size, w.entryOf s address = .error (.hash (.outOfMemory size)) ∧
      w.memory s.allocated size = false) ∨
    ∃ i s', w.entryOf s address = .ok (w.block i, s') ∧ i < s'.allocated ∧
      (s'.vehicles (w.block i)).address = address ∧
      ((hashFind vehicles address = some (s'.vehicles (w.block i)) ∧ Lists w s' vehicles) ∨
        (hashFind vehicles address = none ∧
          s'.vehicles (w.block i) = Vehicle.new w.malloc address ∧
          Lists w s' (hashAdd vehicles (Vehicle.new w.malloc address)))) := by
  obtain ⟨found, searched, listed, inside⟩ := lists.find address
  rw [Surroundings.entryOf, if_pos lists.handlesKept]
  cases found with
  | some v =>
    right
    obtain ⟨i, below, rfl⟩ := inside v rfl
    refine ⟨i, s, by rw [searched]; rfl, below, ?_, Or.inl ⟨listed, lists⟩⟩
    have key := List.find?_some listed
    simpa using key
  | none =>
    rcases lists.stands.step (lists.takes apart scarce listed) with
      ⟨size, p, key, malloc, equal, refused, ran⟩ | ⟨table, ran, stands⟩
    · left
      cases equal
      refine ⟨size, ?_, refused⟩
      rw [searched]
      simp only [HashOp.run] at ran
      simp only [bind, Except.bind, Except.mapError, ran]
    · right
      simp only [HashOp.run] at ran
      refine ⟨s.allocated, _, by
        rw [searched]
        simp only [bind, Except.bind, Except.mapError, ran]
        rfl,
        Nat.lt_succ_self _, by simp [Vehicle.new],
        Or.inr ⟨listed, by simp, lists.added apart stands⟩⟩

theorem Lists.report (lists : Lists w s vehicles) (apart : Function.Injective w.block)
    (scarce : ∀ n, Scarce (w.memory n)) {info : LeAdvertisingInfo}
    (handles : checkReportFilter w.filterType info ≠ 0 →
      ∀ r ∈ accepted info.records, SparesHandle r) :
    (∃ n size, w.report s info = .error (.hash (.outOfMemory size)) ∧ w.memory n size = false) ∨
    ∃ s', w.report s info =
        .ok (s', (printAdvertisingDevices.report w.filterType w.malloc vehicles info).2) ∧
      Lists w s' (printAdvertisingDevices.report w.filterType w.malloc vehicles info).1 := by
  unfold Surroundings.report printAdvertisingDevices.report
  split
  · rename_i passes
    rcases lists.entryOf apart scarce info.bdaddr with
      ⟨size, ran, refused⟩ | ⟨i, s', ran, below, address, cases⟩
    · refine Or.inl ⟨s.allocated, size, ?_, refused⟩
      simp only [ran, bind, Except.bind]
    · have kept : (s'.vehicles (w.block i)).address =
          ((s'.vehicles (w.block i)).hear info).1.address := (hear_address info _).symm
      right
      simp only [ran, bind, Except.bind]
      rcases cases with ⟨found, lists'⟩ | ⟨missing, new, lists'⟩
      · have spared := hear_handleKept (handles passes) (lists'.kept i below)
        rw [found]
        exact ⟨_, rfl, lists'.store apart below kept spared⟩
      · have spared := hear_handleKept (handles passes) (lists'.kept i below)
        rw [missing]
        have stored := lists'.store apart below kept spared
        rw [new] at stored ⊢
        exact ⟨_, rfl, stored⟩
  · exact Or.inr ⟨s, rfl, lists⟩

theorem Lists.lines (lists : Lists w s vehicles) (apart : Function.Injective w.block)
    (scarce : ∀ n, Scarce (w.memory n)) {infos : List LeAdvertisingInfo}
    (handles : ∀ info ∈ infos, checkReportFilter w.filterType info ≠ 0 →
      ∀ r ∈ accepted info.records, SparesHandle r) :
    (∃ n size, w.lines s infos = .error (.hash (.outOfMemory size)) ∧ w.memory n size = false) ∨
      w.lines s infos =
        .ok (printAdvertisingDevices.lines w.filterType w.malloc vehicles infos) := by
  induction infos generalizing s vehicles with
  | nil => exact Or.inr rfl
  | cons info infos ih =>
    unfold Surroundings.lines printAdvertisingDevices.lines
    rcases lists.report apart scarce (handles info List.mem_cons_self) with
      ⟨n, size, ran, refused⟩ | ⟨s', ran, lists'⟩
    · refine Or.inl ⟨n, size, ?_, refused⟩
      simp only [ran, bind, Except.bind]
    · rcases ih lists' fun i hi => handles i (List.mem_cons_of_mem info hi) with
        ⟨n, size, later, refused⟩ | later
      · refine Or.inl ⟨n, size, ?_, refused⟩
        simp only [ran, later, bind, Except.bind]
      · right
        simp only [ran, later, bind, Except.bind]
        rfl

end AnkiDrive
