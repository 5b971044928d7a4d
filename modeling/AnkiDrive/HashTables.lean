import AnkiDrive.Crowding

/-! A whole table: the items in the order of insertion, filed in the buckets. Additions and
deletions keep it so, and the search, the iteration and the integrity check of `HASH_FSCK`
see the items. -/
namespace AnkiDrive
open CModel

variable {hh hh' : Handles} {tbl : HashTable} {items chain : List Ptr} {p q : Ptr}
  {malloc : Nat → Bool} {u : Uthash} {hashFcn : List UInt8 → UInt32}

/-- No block of 32 GiB is to be had, which the buckets of a table of `2^31` buckets would be. -/
def Scarce (malloc : Nat → Bool) : Prop := malloc 0x800000000 = false

structure Stacked (hh : Handles) (tbl : HashTable) (items : List Ptr) : Prop where
  filed : ∃ chains, Filed hh tbl.buckets tbl.numBuckets items chains
  power : tbl.numBuckets = 2 ^ tbl.log2NumBuckets
  small : tbl.numBuckets < 0x80000000
  roomy : Roomy tbl

theorem Stacked.congr (held : Stacked hh tbl items) (links : bktLinks hh' = bktLinks hh)
    (values : ∀ p ∈ items, (hh' p).hashv = (hh p).hashv) : Stacked hh' tbl items := by
  obtain ⟨chains, filed⟩ := held.filed
  refine ⟨⟨chains, filed.length, fun i inside => ?_, fun i inside => ?_⟩, held.power, held.small,
    held.roomy⟩
  · exact (filed.holds i inside).congr (fun p _ => by rw [links]) fun p _ => by rw [links]
  · refine (filed.members i inside).trans (List.Perm.of_eq ?_)
    apply List.filter_congr
    intro p inside
    simp only [bktOf, values p inside]
    rfl

theorem Stacked.double_small (held : Stacked hh tbl items) (scarce : Scarce malloc)
    (granted : malloc (2 * tbl.numBuckets % 0x100000000 * HashBucket.size) = true) :
    tbl.numBuckets * 2 < 0x80000000 := by
  by_contra large
  have below : tbl.log2NumBuckets < 31 := by
    apply (Nat.pow_lt_pow_iff_right (Nat.one_lt_two)).mp
    rw [← held.power]
    exact held.small
  have above : 30 ≤ tbl.log2NumBuckets := by
    by_contra few
    have bound : 2 ^ tbl.log2NumBuckets ≤ 2 ^ 29 :=
      Nat.pow_le_pow_right Nat.two_pos (by omega)
    have power := held.power
    omega
  have exact : tbl.log2NumBuckets = 30 := by omega
  have size : 2 * tbl.numBuckets % 0x100000000 * HashBucket.size = 0x800000000 := by
    rw [held.power, exact]
    rfl
  rw [size] at granted
  rw [Scarce, granted] at scarce
  exact Bool.noConfusion scarce

theorem hashAddToBkt_cases (held : Stacked hh tbl items) (scarce : Scarce malloc)
    (distinct : (items ++ [p]).Nodup) (counted : tbl.numItems = items.length + 1) :
    (∃ size, hashAddToBkt malloc hh tbl (bktOf hh tbl.numBuckets p) p =
        .error (.outOfMemory size) ∧ malloc size = false) ∨
    ∃ hh' tbl', hashAddToBkt malloc hh tbl (bktOf hh tbl.numBuckets p) p = .ok (hh', tbl') ∧
      Stacked hh' tbl' (items ++ [p]) ∧ SameItems hh hh' ∧ appLinks hh' = appLinks hh ∧
      tbl'.tail = tbl.tail ∧ tbl'.numItems = tbl.numItems := by
  obtain ⟨chains, filed⟩ := held.filed
  have inside : bktOf hh tbl.numBuckets p < tbl.buckets.length :=
    filed.length.symm ▸ hashToBkt_lt _ held.power
  have all : tbl.numItems = (items ++ [p]).length := by
    rw [counted, List.length_append, List.length_singleton]
  cases own : tbl.buckets.getD (bktOf hh tbl.numBuckets p) HashBucket.zero with
  | mk hhHead count expandMult =>
    have here : (⟨hhHead, count, expandMult⟩ : HashBucket) ∈ tbl.buckets :=
      (mem_buckets_iff _).mpr ⟨_, inside, own⟩
    have pushed := @Filed.push hh tbl.buckets tbl.numBuckets tbl.log2NumBuckets items chains
      ⟨some p, count + 1, expandMult⟩ p hhHead filed held.power distinct (by rw [own]) rfl
      (by rw [own])
    have same := sameItems_bktPush hh hhHead p
    have apps := appLinks_bktPush hh hhHead p
    unfold hashAddToBkt
    simp only [own]
    split
    · rename_i crowded
      by_cases granted : malloc (2 * tbl.numBuckets % 0x100000000 * HashBucket.size) = true
      · right
        obtain ⟨hh', tbl', ran, expanded⟩ := @hashExpandBuckets_ok (bktPush hh hhHead p)
          (items ++ [p]) _ { tbl with
            buckets := tbl.buckets.set (bktOf hh tbl.numBuckets p) ⟨some p, count + 1, expandMult⟩ }
          malloc pushed held.power distinct all granted
        have few : tbl.numItems ≤ 20 * tbl.numBuckets := by
          have total := items_le (held.roomy.fits crowded.2)
            (filed.length.symm ▸ held.roomy.mults crowded.2) (by omega)
          rw [filed.countSum_eq held.power, filed.length] at total
          omega
        have twice : tbl'.numBuckets = 2 ^ tbl'.log2NumBuckets := by
          rw [expanded.numBuckets, expanded.log2NumBuckets, Nat.pow_succ]
          exact congrArg (· * 2) held.power
        have small : tbl'.numBuckets < 0x80000000 := by
          rw [expanded.numBuckets]
          exact held.double_small scarce granted
        refine ⟨hh', tbl', ran, ⟨expanded.filed, twice, small, ?_⟩, same.trans expanded.same,
          expanded.apps.trans apps, expanded.tail, expanded.numItems⟩
        have nonempty : 0 < tbl.numItems := by omega
        exact expanded.roomy held.power nonempty all few
      · left
        have refused := eq_false_of_ne_true granted
        exact ⟨_, hashExpandBuckets_refused refused, refused⟩
    · rename_i calm
      right
      refine ⟨_, _, rfl, ⟨⟨_, pushed⟩, held.power, held.small, ?_⟩, same, apps, rfl, rfl⟩
      apply held.roomy.set (by rw [own])
      intro going
      have below : ¬ (expandMult + 1) * hashBktCapacityThresh ≤ count + 1 :=
        fun full => calm ⟨full, going⟩
      constructor
      · simp only [HashBucket.threshold]
        omega
      · simp only [HashBucket.threshold]
        omega

/-- A table that exists. -/
structure Tabled (hashFcn : List UInt8 → UInt32) (u : Uthash) (items : List Ptr) : Prop where
  apps : (appLinks u.hh).Chain u.head items u.tbl.tail
  distinct : items.Nodup
  stacked : Stacked u.hh u.tbl items
  counted : u.tbl.numItems = items.length
  hashed : ∀ p ∈ items, (u.hh p).hashv = hashFcn (u.hh p).key

/-- A table that holds the items; without items there is none. -/
def Held (hashFcn : List UInt8 → UInt32) (u : Uthash) (items : List Ptr) : Prop :=
  if items = [] then u.head = none else Tabled hashFcn u items

theorem hashMakeTable_cases (malloc : Nat → Bool) (hh : Handles) (p : Ptr) :
    (∃ size, Uthash.hashMakeTable malloc p = .error (.outOfMemory size) ∧ malloc size = false) ∨
    ∃ tbl, Uthash.hashMakeTable malloc p = .ok tbl ∧ Stacked hh tbl [] ∧ tbl.numItems = 0 := by
  unfold Uthash.hashMakeTable
  dsimp only
  split
  · rename_i refused
    exact Or.inl ⟨_, rfl, refused⟩
  · split
    · rename_i refused
      exact Or.inl ⟨_, rfl, refused⟩
    · refine Or.inr ⟨_, rfl, ⟨⟨_, filed_nil hh _⟩, rfl, ?_, ?_⟩, rfl⟩
      · change hashInitialNumBuckets < 0x80000000
        decide
      constructor
      · intro _ b inside
        obtain rfl := List.eq_of_mem_replicate inside
        exact ⟨by decide, fun _ => rfl⟩
      · intro _
        change multSum (List.replicate hashInitialNumBuckets HashBucket.zero) ≤
          hashInitialNumBuckets
        decide

/-- The handle of a new item before it goes into a bucket. -/
def newHandle (hh : Handles) (tail : Option Ptr) (p : Ptr) (key : List UInt8) (v : UInt32) :
    Handles :=
  setHashv (setPrev (storeIf setNext (setKey (setNext hh p none) p key) tail (some p)) p tail) p v

theorem newHandle_own (hh : Handles) (tail : Option Ptr) (p : Ptr) (key : List UInt8)
    (v : UInt32) : (newHandle hh tail p key v p).key = key ∧
      (newHandle hh tail p key v p).hashv = v := by
  have same := (sameItems_storeIf sameItems_setNext (setKey (setNext hh p none) p key) tail
    (some p)).trans (sameItems_setPrev _ p tail)
  have stored : (setKey (setNext hh p none) p key p).key = key := by simp [setKey, store]
  constructor
  · simpa [newHandle, setHashv, store] using (same p).1.trans stored
  · simp [newHandle, setHashv, store]

theorem newHandle_ne (hh : Handles) (tail : Option Ptr) (key : List UInt8) (v : UInt32)
    (other : q ≠ p) : (newHandle hh tail p key v q).key = (hh q).key ∧
      (newHandle hh tail p key v q).hashv = (hh q).hashv := by
  have same := (sameItems_storeIf sameItems_setNext (setKey (setNext hh p none) p key) tail
    (some p)).trans (sameItems_setPrev _ p tail) q
  have stored : (setKey (setNext hh p none) p key q).key = (hh q).key ∧
      (setKey (setNext hh p none) p key q).hashv = (hh q).hashv := by
    simp [setKey, setNext, store, other]
  constructor
  · simpa [newHandle, setHashv, store, other] using same.1.trans stored.1
  · simpa [newHandle, setHashv, store, other] using same.2.trans stored.2

theorem file_cases {head tail : Option Ptr} {key : List UInt8}
    (apps : (appLinks hh).Chain head items tail) (distinct : (items ++ [p]).Nodup)
    (held : Stacked hh tbl items) (counted : tbl.numItems = items.length)
    (hashed : ∀ p ∈ items, (hh p).hashv = hashFcn (hh p).key) (scarce : Scarce malloc) :
    (∃ size, Uthash.hashAddKeyptr.file hashFcn malloc (setKey (setNext hh p none) p key)
        (head.getD p) tail tbl key p = .error (.outOfMemory size) ∧ malloc size = false) ∨
    ∃ u, Uthash.hashAddKeyptr.file hashFcn malloc (setKey (setNext hh p none) p key)
        (head.getD p) tail tbl key p = .ok u ∧ Tabled hashFcn u (items ++ [p]) ∧
      (u.hh p).key = key ∧ ∀ q, q ≠ p → (u.hh q).key = (hh q).key := by
  have fresh : p ∉ items := ((List.nodup_concat items p).mp (List.concat_eq_append ▸ distinct)).1
  have own := newHandle_own hh tail p key (hashFcn key)
  have others := fun q (other : q ≠ p) => newHandle_ne hh tail key (hashFcn key) other
  have links : bktLinks (newHandle hh tail p key (hashFcn key)) = bktLinks hh := by
    simp [newHandle]
  have order : appLinks (newHandle hh tail p key (hashFcn key)) = (appLinks hh).append tail p := by
    simp [newHandle, Links.append]
  have kept : Stacked (newHandle hh tail p key (hashFcn key)) tbl items :=
    held.congr links fun q on => (others q fun same => fresh (same ▸ on)).2
  have stacked : Stacked (newHandle hh tail p key (hashFcn key))
      { tbl with tail := some p, numItems := tbl.numItems + 1 } items :=
    ⟨kept.filed, kept.power, kept.small, kept.roomy.fits, kept.roomy.mults⟩
  have bkt : bktOf (newHandle hh tail p key (hashFcn key)) tbl.numBuckets p =
      hashToBkt (hashFcn key) tbl.numBuckets := by
    rw [bktOf, own.2]
  have cases := hashAddToBkt_cases stacked scarce distinct (congrArg (· + 1) counted)
  simp only [bkt] at cases
  simp only [Uthash.hashAddKeyptr.file, ← newHandle.eq_1]
  rcases cases with ⟨size, ran, refused⟩ | ⟨hh', tbl', ran, filed, same, apps', tail', numItems⟩
  · exact Or.inl ⟨size, by rw [ran]; rfl, refused⟩
  · right
    rw [ran]
    refine ⟨_, rfl, ?_, (same p).1.trans own.1, fun q other => (same q).1.trans (others q other).1⟩
    constructor
    · change (appLinks hh').Chain (some (head.getD p)) (items ++ [p]) tbl'.tail
      have joined := apps.append distinct
      rw [apps', order, tail']
      cases head <;> exact joined
    · exact distinct
    · exact filed
    · change tbl'.numItems = (items ++ [p]).length
      rw [numItems, List.length_append, List.length_singleton]
      exact congrArg (· + 1) counted
    · intro q on
      change (hh' q).hashv = hashFcn (hh' q).key
      rw [(same q).1, (same q).2]
      rcases List.mem_append.mp on with old | new
      · have other : q ≠ p := fun same => fresh (same ▸ old)
        rw [(others q other).1, (others q other).2]
        exact hashed q old
      · obtain rfl := List.mem_singleton.mp new
        rw [own.1, own.2]

/-- An addition runs out of memory or puts the item behind the others. -/
theorem hashAddKeyptr_cases {key : List UInt8} (held : Held hashFcn u items)
    (distinct : (items ++ [p]).Nodup) (scarce : Scarce malloc) :
    (∃ size, u.hashAddKeyptr hashFcn malloc key p = .error (.outOfMemory size) ∧
      malloc size = false) ∨
    ∃ u', u.hashAddKeyptr hashFcn malloc key p = .ok u' ∧ Held hashFcn u' (items ++ [p]) ∧
      (u'.hh p).key = key ∧ ∀ q, q ≠ p → (u'.hh q).key = (u.hh q).key := by
  have nonempty : items ++ [p] ≠ [] := by simp
  unfold Held at held
  split at held
  · rename_i empty
    subst empty
    simp only [Uthash.hashAddKeyptr, held]
    rcases hashMakeTable_cases malloc u.hh p with ⟨size, ran, refused⟩ | ⟨tbl, ran, stacked, zero⟩
    · exact Or.inl ⟨size, by rw [ran]; rfl, refused⟩
    · have nothing : (appLinks u.hh).Chain none [] none := ⟨rfl, rfl⟩
      have cases := @file_cases u.hh tbl [] p malloc hashFcn none none key nothing distinct stacked
        zero (fun _ on => absurd on List.not_mem_nil) scarce
      rcases cases with refused | ⟨u', added, tabled, keys⟩
      · left
        rw [ran]
        exact refused
      · right
        rw [ran]
        exact ⟨u', added, by rwa [Held, if_neg nonempty], keys⟩
  · rename_i holding
    have first := held.apps.head_eq
    obtain ⟨a, as, rfl⟩ := List.exists_cons_of_ne_nil holding
    have head : u.head = some a := first
    have cases := @file_cases u.hh u.tbl (a :: as) p malloc hashFcn u.head u.tbl.tail key held.apps
      distinct held.stacked held.counted held.hashed scarce
    simp only [Uthash.hashAddKeyptr, head] at cases ⊢
    rcases cases with refused | ⟨u', added, tabled, keys⟩
    · exact Or.inl refused
    · exact Or.inr ⟨u', added, by rwa [Held, if_neg nonempty], keys⟩

/-- The handles once an element has been taken out of the order. -/
def unlinked (hh : Handles) (p : Ptr) : Handles :=
  let hh := storeIf setNext hh (hh p).prev (hh p).next
  storeIf setPrev hh (hh p).next (hh p).prev

theorem appLinks_unlinked (hh : Handles) (p : Ptr) :
    appLinks (unlinked hh p) = (appLinks hh).unlink p := by
  have stored := appLinks_storeIf_setNext hh (hh p).prev (hh p).next
  calc _
    _ = (appLinks (storeIf setNext hh (hh p).prev (hh p).next)).patchPrev
          ((appLinks (storeIf setNext hh (hh p).prev (hh p).next)).next p)
          ((appLinks (storeIf setNext hh (hh p).prev (hh p).next)).prev p) :=
        appLinks_storeIf_setPrev _ _ _
    _ = (appLinks hh).unlink p := by
      rw [stored]
      rfl

@[simp] theorem bktLinks_unlinked (hh : Handles) (p : Ptr) :
    bktLinks (unlinked hh p) = bktLinks hh := by
  simp [unlinked]

theorem sameItems_unlinked (hh : Handles) (p : Ptr) : SameItems hh (unlinked hh p) :=
  (sameItems_storeIf sameItems_setNext hh _ _).trans (sameItems_storeIf sameItems_setPrev _ _ _)

theorem Roomy.delete (roomy : Roomy tbl) {i : Nat} {tail : Option Ptr} {m : Nat}
    (inside : i < tbl.buckets.length) (hh : Handles) (p : Ptr) :
    Roomy { tbl with
      buckets := tbl.buckets.set i
        (hashDelInBkt hh (tbl.buckets.getD i HashBucket.zero) p).2
      tail := tail
      numItems := m } := by
  refine roomy.set (b := (hashDelInBkt hh (tbl.buckets.getD i HashBucket.zero) p).2) rfl
    fun going => ?_
  obtain ⟨within, full⟩ := roomy.fits going _ ((mem_buckets_iff _).mpr ⟨i, inside, rfl⟩)
  simp only [HashBucket.threshold, hashBktCapacityThresh] at within full
  constructor
  · simp only [hashDelInBkt, HashBucket.threshold, hashBktCapacityThresh]
    omega
  · simp only [hashDelInBkt, HashBucket.threshold, hashBktCapacityThresh]
    omega

theorem Stacked.delete (held : Stacked hh tbl items) (distinct : items.Nodup) (on : p ∈ items)
    (tail : Option Ptr) (m : Nat) :
    Stacked (hashDelInBkt hh (tbl.buckets.getD (bktOf hh tbl.numBuckets p) HashBucket.zero) p).1
      { tbl with
        buckets := tbl.buckets.set (bktOf hh tbl.numBuckets p)
          (hashDelInBkt hh (tbl.buckets.getD (bktOf hh tbl.numBuckets p) HashBucket.zero) p).2
        tail := tail
        numItems := m } (items.erase p) := by
  obtain ⟨⟨chains, filed⟩, power, small, roomy⟩ := held
  have inside : bktOf hh tbl.numBuckets p < tbl.buckets.length :=
    filed.length.symm ▸ hashToBkt_lt _ power
  exact ⟨⟨_, filed.delete power distinct on⟩, power, small, roomy.delete inside hh p⟩

theorem Tabled.delete {as bs : List Ptr} (held : Tabled hashFcn u (as ++ p :: bs))
    (company : ¬ ((u.hh p).prev = none ∧ (u.hh p).next = none)) :
    Tabled hashFcn (u.hashDelete p) (as ++ bs) ∧ SameItems u.hh (u.hashDelete p).hh := by
  have distinct := held.distinct
  have on : p ∈ as ++ p :: bs := by simp
  have order := appLinks_unlinked u.hh p
  have same := sameItems_unlinked u.hh p
  have stacked := (held.stacked.congr (bktLinks_unlinked u.hh p) fun q _ => (same q).2).delete
    distinct on (if u.tbl.tail = some p then (u.hh p).prev else u.tbl.tail) (u.tbl.numItems - 1)
  simp only [Uthash.hashDelete, if_neg company, ← unlinked.eq_1]
  generalize unlinked u.hh p = hh at order same stacked ⊢
  have kept := sameItems_hashDelInBkt hh
    (u.tbl.buckets.getD (bktOf hh u.tbl.numBuckets p) HashBucket.zero) p
  have apps := appLinks_hashDelInBkt hh
    (u.tbl.buckets.getD (bktOf hh u.tbl.numBuckets p) HashBucket.zero) p
  rw [erase_middle distinct] at stacked
  refine ⟨⟨?_, (List.nodup_cons.mp (List.nodup_middle.mp distinct)).2, stacked, ?_, ?_⟩,
    same.trans kept⟩
  · have linked := held.apps.unlink distinct
    rw [← held.apps.first_unlink, ← held.apps.last_unlink distinct, ← order, ← apps] at linked
    exact linked
  · change u.tbl.numItems - 1 = (as ++ bs).length
    rw [held.counted, List.length_append, List.length_append, List.length_cons]
    omega
  · intro q there
    have old : q ∈ as ++ p :: bs := by
      rcases List.mem_append.mp there with left | right
      · exact List.mem_append_left _ left
      · exact List.mem_append_right _ (List.mem_cons_of_mem p right)
    have value := held.hashed q old
    rwa [← (same q).1, ← (same q).2, ← (kept q).1, ← (kept q).2] at value

/-- A deletion takes the element out; with the last one goes the table. -/
theorem hashDelete_held (held : Held hashFcn u items) (on : p ∈ items) :
    Held hashFcn (u.hashDelete p) (items.erase p) ∧
      ∀ q, ((u.hashDelete p).hh q).key = (u.hh q).key := by
  rw [Held, if_neg (List.ne_nil_of_mem on)] at held
  obtain ⟨as, bs, rfl⟩ := List.append_of_mem on
  obtain ⟨front, behind⟩ := held.apps.around
  have front : (u.hh p).prev = as.getLast? := front
  have behind : (u.hh p).next = bs.head? := behind
  by_cases alone : (u.hh p).prev = none ∧ (u.hh p).next = none
  · have empty := alone
    rw [front, behind, List.getLast?_eq_none_iff, List.head?_eq_none_iff] at empty
    obtain ⟨rfl, rfl⟩ := empty
    rw [Uthash.hashDelete, if_pos alone]
    simp [Held]
  · have rest : as ++ bs ≠ [] := by
      intro empty
      obtain ⟨rfl, rfl⟩ := List.append_eq_nil_iff.mp empty
      exact alone ⟨front, behind⟩
    obtain ⟨tabled, same⟩ := held.delete alone
    rw [erase_middle held.distinct, Held, if_neg rest]
    exact ⟨tabled, fun q => (same q).1⟩

end AnkiDrive
