import AnkiDrive.Uthash
import Mathlib.Data.List.Perm.Basic
import Mathlib.Data.Nat.Bitwise

/-! The buckets of a table: every item is on the chain of the bucket that its hash value
selects, through every change of the chains and of their number. -/
namespace AnkiDrive
open CModel

section Stores

variable (hh : Handles) (p q : Ptr) (o r : Option Ptr)

@[simp] theorem appLinks_setNext : appLinks (setNext hh p o) = (appLinks hh).setNext p o := by
  simp only [appLinks, setNext, store, Links.setNext, Links.mk.injEq]
  constructor <;> funext q <;> by_cases same : q = p <;> simp [same]

@[simp] theorem appLinks_setPrev : appLinks (setPrev hh p o) = (appLinks hh).setPrev p o := by
  simp only [appLinks, setPrev, store, Links.setPrev, Links.mk.injEq]
  constructor <;> funext q <;> by_cases same : q = p <;> simp [same]

@[simp] theorem bktLinks_setHhNext :
    bktLinks (setHhNext hh p o) = (bktLinks hh).setNext p o := by
  simp only [bktLinks, setHhNext, store, Links.setNext, Links.mk.injEq]
  constructor <;> funext q <;> by_cases same : q = p <;> simp [same]

@[simp] theorem bktLinks_setHhPrev :
    bktLinks (setHhPrev hh p o) = (bktLinks hh).setPrev p o := by
  simp only [bktLinks, setHhPrev, store, Links.setPrev, Links.mk.injEq]
  constructor <;> funext q <;> by_cases same : q = p <;> simp [same]

variable {hh p} in
theorem appLinks_store {change : HashHandle → HashHandle}
    (kept : ∀ h, (change h).next = h.next ∧ (change h).prev = h.prev) :
    appLinks (store change hh p) = appLinks hh := by
  simp only [appLinks, store, Links.mk.injEq]
  constructor <;> funext q <;> by_cases same : q = p <;> simp [same, kept]

variable {hh p} in
theorem bktLinks_store {change : HashHandle → HashHandle}
    (kept : ∀ h, (change h).hhNext = h.hhNext ∧ (change h).hhPrev = h.hhPrev) :
    bktLinks (store change hh p) = bktLinks hh := by
  simp only [bktLinks, store, Links.mk.injEq]
  constructor <;> funext q <;> by_cases same : q = p <;> simp [same, kept]

@[simp] theorem bktLinks_setNext : bktLinks (setNext hh p o) = bktLinks hh :=
  bktLinks_store fun _ => ⟨rfl, rfl⟩

@[simp] theorem bktLinks_setPrev : bktLinks (setPrev hh p o) = bktLinks hh :=
  bktLinks_store fun _ => ⟨rfl, rfl⟩

@[simp] theorem appLinks_setHhNext : appLinks (setHhNext hh p o) = appLinks hh :=
  appLinks_store fun _ => ⟨rfl, rfl⟩

@[simp] theorem appLinks_setHhPrev : appLinks (setHhPrev hh p o) = appLinks hh :=
  appLinks_store fun _ => ⟨rfl, rfl⟩

@[simp] theorem appLinks_setKey (key : List UInt8) : appLinks (setKey hh p key) = appLinks hh :=
  appLinks_store fun _ => ⟨rfl, rfl⟩

@[simp] theorem bktLinks_setKey (key : List UInt8) : bktLinks (setKey hh p key) = bktLinks hh :=
  bktLinks_store fun _ => ⟨rfl, rfl⟩

@[simp] theorem appLinks_setHashv (v : UInt32) : appLinks (setHashv hh p v) = appLinks hh :=
  appLinks_store fun _ => ⟨rfl, rfl⟩

@[simp] theorem bktLinks_setHashv (v : UInt32) : bktLinks (setHashv hh p v) = bktLinks hh :=
  bktLinks_store fun _ => ⟨rfl, rfl⟩

@[simp] theorem appLinks_storeIf_setNext :
    appLinks (storeIf setNext hh o r) = (appLinks hh).patchNext o r := by
  cases o <;> simp [storeIf, Links.patchNext]

@[simp] theorem appLinks_storeIf_setPrev :
    appLinks (storeIf setPrev hh o r) = (appLinks hh).patchPrev o r := by
  cases o <;> simp [storeIf, Links.patchPrev]

@[simp] theorem bktLinks_storeIf_setHhNext :
    bktLinks (storeIf setHhNext hh o r) = (bktLinks hh).patchNext o r := by
  cases o <;> simp [storeIf, Links.patchNext]

@[simp] theorem bktLinks_storeIf_setHhPrev :
    bktLinks (storeIf setHhPrev hh o r) = (bktLinks hh).patchPrev o r := by
  cases o <;> simp [storeIf, Links.patchPrev]

@[simp] theorem bktLinks_storeIf_setNext : bktLinks (storeIf setNext hh o r) = bktLinks hh := by
  cases o <;> simp [storeIf]

@[simp] theorem bktLinks_storeIf_setPrev : bktLinks (storeIf setPrev hh o r) = bktLinks hh := by
  cases o <;> simp [storeIf]

@[simp] theorem appLinks_storeIf_setHhNext :
    appLinks (storeIf setHhNext hh o r) = appLinks hh := by
  cases o <;> simp [storeIf]

@[simp] theorem appLinks_storeIf_setHhPrev :
    appLinks (storeIf setHhPrev hh o r) = appLinks hh := by
  cases o <;> simp [storeIf]

end Stores

/-- The same key and the same hash value in every handle. -/
def SameItems (hh hh' : Handles) : Prop :=
  ∀ p, (hh' p).key = (hh p).key ∧ (hh' p).hashv = (hh p).hashv

theorem SameItems.trans {hh₁ hh₂ hh₃ : Handles} (first : SameItems hh₁ hh₂)
    (second : SameItems hh₂ hh₃) : SameItems hh₁ hh₃ :=
  fun p => ⟨(second p).1.trans (first p).1, (second p).2.trans (first p).2⟩

theorem sameItems_store {change : HashHandle → HashHandle} (hh : Handles) (p : Ptr)
    (kept : ∀ h, (change h).key = h.key ∧ (change h).hashv = h.hashv) :
    SameItems hh (store change hh p) := by
  intro q
  by_cases same : q = p <;> simp [store, same, kept]

theorem sameItems_storeIf {set : Handles → Ptr → Option Ptr → Handles}
    (kept : ∀ hh p o, SameItems hh (set hh p o)) (hh : Handles) (p o : Option Ptr) :
    SameItems hh (storeIf set hh p o) := by
  cases p with
  | none => exact fun _ => ⟨rfl, rfl⟩
  | some p => exact kept hh p o

theorem sameItems_setNext (hh : Handles) (p : Ptr) (o : Option Ptr) :
    SameItems hh (setNext hh p o) := sameItems_store hh p fun _ => ⟨rfl, rfl⟩

theorem sameItems_setPrev (hh : Handles) (p : Ptr) (o : Option Ptr) :
    SameItems hh (setPrev hh p o) := sameItems_store hh p fun _ => ⟨rfl, rfl⟩

theorem sameItems_setHhNext (hh : Handles) (p : Ptr) (o : Option Ptr) :
    SameItems hh (setHhNext hh p o) := sameItems_store hh p fun _ => ⟨rfl, rfl⟩

theorem sameItems_setHhPrev (hh : Handles) (p : Ptr) (o : Option Ptr) :
    SameItems hh (setHhPrev hh p o) := sameItems_store hh p fun _ => ⟨rfl, rfl⟩

/-- The bucket that an item belongs to among `n`. -/
def bktOf (hh : Handles) (n : Nat) (p : Ptr) : Nat := hashToBkt (hh p).hashv n

theorem hashToBkt_lt (v : UInt32) {n k : Nat} (power : n = 2 ^ k) : hashToBkt v n < n := by
  subst power
  have positive : 0 < 2 ^ k := Nat.two_pow_pos k
  rw [hashToBkt, Nat.and_two_pow_sub_one_eq_mod]
  exact Nat.mod_lt _ positive

structure BucketHolds (hh : Handles) (b : HashBucket) (chain : List Ptr) : Prop where
  linked : (bktLinks hh).Chain b.hhHead chain chain.getLast?
  counted : b.count = chain.length

/-- `n` buckets that hold the items, each on the chain of its own bucket. -/
structure Filed (hh : Handles) (buckets : List HashBucket) (n : Nat) (items : List Ptr)
    (chains : Nat → List Ptr) : Prop where
  length : buckets.length = n
  holds : ∀ i < n, BucketHolds hh (buckets.getD i HashBucket.zero) (chains i)
  members : ∀ i < n, (chains i).Perm (items.filter fun p => bktOf hh n p = i)

variable {hh hh' : Handles} {buckets : List HashBucket} {n k : Nat} {items : List Ptr}
  {chains : Nat → List Ptr} {b : HashBucket} {chain : List Ptr} {p : Ptr} {i : Nat}

theorem BucketHolds.congr (held : BucketHolds hh b chain)
    (nexts : ∀ p ∈ chain, (bktLinks hh').next p = (bktLinks hh).next p)
    (prevs : ∀ p ∈ chain, (bktLinks hh').prev p = (bktLinks hh).prev p) :
    BucketHolds hh' b chain :=
  ⟨Links.Segment.congr held.linked nexts prevs, held.counted⟩

theorem Filed.mem_chain (filed : Filed hh buckets n items chains) (inside : i < n) :
    p ∈ chains i ↔ p ∈ items ∧ bktOf hh n p = i := by
  rw [(filed.members i inside).mem_iff, List.mem_filter, decide_eq_true_eq]

theorem Filed.nodup (filed : Filed hh buckets n items chains) (distinct : items.Nodup)
    (inside : i < n) : (chains i).Nodup :=
  (filed.members i inside).nodup_iff.mpr (distinct.filter _)

theorem Filed.length_chain_le (filed : Filed hh buckets n items chains) (inside : i < n) :
    (chains i).length ≤ items.length := by
  rw [(filed.members i inside).length_eq]
  exact List.length_filter_le _ _

theorem Filed.perm {items' : List Ptr} (filed : Filed hh buckets n items chains)
    (same : items.Perm items') : Filed hh buckets n items' chains :=
  ⟨filed.length, filed.holds, fun i inside => (filed.members i inside).trans (same.filter _)⟩

theorem filed_nil (hh : Handles) (n : Nat) :
    Filed hh (List.replicate n HashBucket.zero) n [] fun _ => [] := by
  refine ⟨List.length_replicate, fun i inside => ?_, fun i _ => by simp⟩
  have zero : (List.replicate n HashBucket.zero).getD i HashBucket.zero = HashBucket.zero := by
    simp [List.getD_eq_getElem?_getD, inside]
  rw [zero]
  exact ⟨⟨rfl, rfl⟩, rfl⟩

theorem getD_set_same {bs : List HashBucket} (inside : i < bs.length) :
    (bs.set i b).getD i HashBucket.zero = b := by
  simp [List.getD_eq_getElem?_getD, inside]

theorem getD_set_ne {bs : List HashBucket} {j : Nat} (apart : i ≠ j) :
    (bs.set i b).getD j HashBucket.zero = bs.getD j HashBucket.zero := by
  simp [List.getD_eq_getElem?_getD, List.getElem?_set_ne apart]

/-- What the three stores into the links of a chain make of it when an item is put in front. -/
def bktPush (hh : Handles) (head : Option Ptr) (p : Ptr) : Handles :=
  storeIf setHhPrev (setHhPrev (setHhNext hh p head) p none) head (some p)

theorem bktLinks_bktPush (hh : Handles) (head : Option Ptr) (p : Ptr) :
    bktLinks (bktPush hh head p) = (bktLinks hh).push head p := by
  simp [bktPush, Links.push]

theorem appLinks_bktPush (hh : Handles) (head : Option Ptr) (p : Ptr) :
    appLinks (bktPush hh head p) = appLinks hh := by
  simp [bktPush]

theorem sameItems_bktPush (hh : Handles) (head : Option Ptr) (p : Ptr) :
    SameItems hh (bktPush hh head p) :=
  ((sameItems_setHhNext hh p head).trans (sameItems_setHhPrev _ p none)).trans
    (sameItems_storeIf sameItems_setHhPrev _ head (some p))

theorem SameItems.bktOf (same : SameItems hh hh') (n : Nat) (p : Ptr) :
    bktOf hh' n p = bktOf hh n p := by
  simp only [AnkiDrive.bktOf, (same p).2]

theorem Filed.push {head : Option Ptr} (filed : Filed hh buckets n items chains)
    (power : n = 2 ^ k) (distinct : (items ++ [p]).Nodup)
    (first : (buckets.getD (bktOf hh n p) HashBucket.zero).hhHead = head)
    (pushed : b.hhHead = some p)
    (counted : b.count = (buckets.getD (bktOf hh n p) HashBucket.zero).count + 1) :
    Filed (bktPush hh head p) (buckets.set (bktOf hh n p) b) n (items ++ [p])
      (Function.update chains (bktOf hh n p) (p :: chains (bktOf hh n p))) := by
  have inside : bktOf hh n p < n := hashToBkt_lt _ power
  have fresh : p ∉ items := ((List.nodup_concat items p).mp (List.concat_eq_append ▸ distinct)).1
  have distinct : items.Nodup := (List.nodup_append'.mp distinct).1
  have own := filed.holds _ inside
  have unchained : ∀ j < n, p ∉ chains j := by
    intro j within on
    exact fresh ((filed.mem_chain within).mp on).1
  have same := sameItems_bktPush hh head p
  refine ⟨by rw [List.length_set, filed.length], fun j within => ?_, fun j within => ?_⟩
  · by_cases here : bktOf hh n p = j
    · obtain rfl := here
      rw [getD_set_same (filed.length ▸ within), Function.update_self]
      have linked := own.linked.push
        (List.nodup_cons.mpr ⟨unchained _ within, filed.nodup distinct within⟩)
      rw [first] at linked
      refine ⟨?_, by rw [counted, own.counted, List.length_cons]⟩
      rw [bktLinks_bktPush, pushed, List.getLast?_cons]
      cases last : (chains (bktOf hh n p)).getLast? <;> simpa [last] using linked
    · rw [getD_set_ne here, Function.update_of_ne (Ne.symm here)]
      refine (filed.holds j within).congr (fun q on => ?_) fun q on => ?_
      · have apart : q ≠ p := fun same => unchained j within (same ▸ on)
        rw [bktLinks_bktPush]
        exact Links.push_next_ne apart
      · have apart : q ≠ p := fun same => unchained j within (same ▸ on)
        rw [bktLinks_bktPush]
        apply Links.push_prev_ne apart
        intro leads
        rw [← first, own.linked.head_eq] at leads
        have elsewhere := ((filed.mem_chain inside).mp (List.mem_of_mem_head? leads)).2
        exact here (elsewhere.symm.trans ((filed.mem_chain within).mp on).2)
  · simp only [same.bktOf, List.filter_append]
    by_cases here : bktOf hh n p = j
    · obtain rfl := here
      rw [Function.update_self, List.filter_cons_of_pos (by simp), List.filter_nil]
      exact ((filed.members _ within).cons p).trans (List.perm_append_singleton p _).symm
    · rw [Function.update_of_ne (Ne.symm here), List.filter_cons_of_neg (by simpa using here),
        List.filter_nil, List.append_nil]
      exact filed.members j within

/-- What `HASH_DEL_IN_BKT` makes of the links. -/
theorem bktLinks_hashDelInBkt (hh : Handles) (b : HashBucket) (p : Ptr) :
    bktLinks (hashDelInBkt hh b p).1 = (bktLinks hh).unlink p := by
  have stored := bktLinks_storeIf_setHhNext hh (hh p).hhPrev (hh p).hhNext
  calc bktLinks (hashDelInBkt hh b p).1
    _ = (bktLinks (storeIf setHhNext hh (hh p).hhPrev (hh p).hhNext)).patchPrev
          ((bktLinks (storeIf setHhNext hh (hh p).hhPrev (hh p).hhNext)).next p)
          ((bktLinks (storeIf setHhNext hh (hh p).hhPrev (hh p).hhNext)).prev p) :=
        bktLinks_storeIf_setHhPrev _ _ _
    _ = (bktLinks hh).unlink p := by
      rw [stored]
      rfl

theorem appLinks_hashDelInBkt (hh : Handles) (b : HashBucket) (p : Ptr) :
    appLinks (hashDelInBkt hh b p).1 = appLinks hh := by
  simp [hashDelInBkt]

theorem sameItems_hashDelInBkt (hh : Handles) (b : HashBucket) (p : Ptr) :
    SameItems hh (hashDelInBkt hh b p).1 :=
  (sameItems_storeIf sameItems_setHhNext hh _ _).trans
    (sameItems_storeIf sameItems_setHhPrev _ _ _)

theorem not_mem_front {as bs : List Ptr} (distinct : (as ++ p :: bs).Nodup) : p ∉ as :=
  fun inside => (List.nodup_append'.mp distinct).2.2 inside List.mem_cons_self

theorem erase_middle {as bs : List Ptr} (distinct : (as ++ p :: bs).Nodup) :
    (as ++ p :: bs).erase p = as ++ bs := by
  rw [List.erase_append_right _ (not_mem_front distinct), List.erase_cons_head]

theorem BucketHolds.delete (held : BucketHolds hh b chain) (distinct : chain.Nodup)
    (on : p ∈ chain) :
    BucketHolds (hashDelInBkt hh b p).1 (hashDelInBkt hh b p).2 (chain.erase p) := by
  obtain ⟨as, bs, rfl⟩ := List.append_of_mem on
  have behind : (hh p).hhNext = bs.head? := held.linked.around.2
  have starts := held.linked.head_eq
  rw [erase_middle distinct]
  constructor
  · have head : (hashDelInBkt hh b p).2.hhHead = (as ++ bs).head? := by
      simp only [hashDelInBkt, starts, behind]
      cases as with
      | nil => simp
      | cons a as =>
        have other : a ≠ p := fun same => not_mem_front distinct (same ▸ List.mem_cons_self)
        simp [other]
    rw [head, bktLinks_hashDelInBkt]
    exact held.linked.unlink distinct
  · simp only [hashDelInBkt, held.counted, List.length_append, List.length_cons]
    omega

/-- The chains of the other buckets do not lead to the item. -/
theorem Filed.delete_elsewhere (filed : Filed hh buckets n items chains) (power : n = 2 ^ k)
    (distinct : items.Nodup) (held : p ∈ items) {j : Nat} (within : j < n)
    (other : bktOf hh n p ≠ j) (b : HashBucket) :
    BucketHolds (hashDelInBkt hh b p).1 (buckets.getD j HashBucket.zero) (chains j) := by
  have inside : bktOf hh n p < n := hashToBkt_lt _ power
  have on : p ∈ chains (bktOf hh n p) := (filed.mem_chain inside).mpr ⟨held, rfl⟩
  have ownDistinct := filed.nodup distinct inside
  have linked := (filed.holds _ inside).linked
  obtain ⟨as, bs, split⟩ := List.append_of_mem on
  rw [split] at linked ownDistinct
  obtain ⟨front, behind⟩ := linked.around
  have elsewhere : ∀ q ∈ chains j, q ∉ chains (bktOf hh n p) := by
    intro q there here
    exact other (((filed.mem_chain inside).mp here).2.symm.trans
      ((filed.mem_chain within).mp there).2)
  refine (filed.holds j within).congr (fun q there => ?_) fun q there => ?_
  · rw [bktLinks_hashDelInBkt]
    apply Links.unlink_next_ne
    intro leads
    rw [front] at leads
    apply elsewhere q there
    rw [split]
    exact List.mem_append_left _ (List.mem_of_mem_getLast? leads)
  · rw [bktLinks_hashDelInBkt]
    apply Links.unlink_prev_ne (linked.loopless ownDistinct)
    intro leads
    rw [behind] at leads
    apply elsewhere q there
    rw [split]
    exact List.mem_append_right _ (List.mem_cons_of_mem p (List.mem_of_mem_head? leads))

theorem filter_erase (distinct : items.Nodup) (f : Ptr → Bool) :
    (items.erase p).filter f = (items.filter f).erase p := by
  rw [List.Nodup.erase_eq_filter (distinct.filter _), List.Nodup.erase_eq_filter distinct,
    List.filter_filter, List.filter_filter]
  simp only [Bool.and_comm]

theorem Filed.delete (filed : Filed hh buckets n items chains) (power : n = 2 ^ k)
    (distinct : items.Nodup) (held : p ∈ items) :
    Filed (hashDelInBkt hh (buckets.getD (bktOf hh n p) HashBucket.zero) p).1
      (buckets.set (bktOf hh n p)
        (hashDelInBkt hh (buckets.getD (bktOf hh n p) HashBucket.zero) p).2) n (items.erase p)
      (Function.update chains (bktOf hh n p) ((chains (bktOf hh n p)).erase p)) := by
  have inside : bktOf hh n p < n := hashToBkt_lt _ power
  have same := sameItems_hashDelInBkt hh (buckets.getD (bktOf hh n p) HashBucket.zero) p
  refine ⟨by rw [List.length_set, filed.length], fun j within => ?_, fun j within => ?_⟩
  · by_cases here : bktOf hh n p = j
    · obtain rfl := here
      have on : p ∈ chains (bktOf hh n p) := (filed.mem_chain inside).mpr ⟨held, rfl⟩
      rw [getD_set_same (filed.length ▸ within), Function.update_self]
      exact (filed.holds _ inside).delete (filed.nodup distinct inside) on
    · rw [getD_set_ne here, Function.update_of_ne (Ne.symm here)]
      exact filed.delete_elsewhere power distinct held within here _
  · simp only [same.bktOf]
    rw [filter_erase distinct]
    by_cases here : bktOf hh n p = j
    · obtain rfl := here
      rw [Function.update_self]
      exact (filed.members _ within).erase p
    · have outside : p ∉ items.filter fun q => decide (bktOf hh n q = j) := by
        simpa using fun _ => here
      rw [Function.update_of_ne (Ne.symm here), List.erase_of_not_mem outside]
      exact filed.members j within

theorem hashFindInBkt_eq {start : Option Ptr} {steps : Nat} (key : List UInt8)
    (path : (bktLinks hh).Path start chain) (enough : chain.length ≤ steps) :
    hashFindInBkt hh key steps start = .ok (chain.find? fun p => (hh p).key = key) := by
  induction chain generalizing start steps with
  | nil =>
    obtain rfl : start = none := path
    cases steps <;> rfl
  | cons p chain ih =>
    obtain ⟨rfl, rest⟩ := path
    cases steps with
    | zero => simp at enough
    | succ steps =>
      have later := ih rest (Nat.le_of_succ_le_succ enough)
      unfold hashFindInBkt
      split
      · rename_i found
        rw [List.find?_cons_of_pos (by simpa using found.2)]
      · rename_i other
        have differs : ¬ (hh p).key = key := fun same => other ⟨congrArg List.length same, same⟩
        rw [List.find?_cons_of_neg (by simpa using differs)]
        exact later

end AnkiDrive
