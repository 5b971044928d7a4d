import AnkiDrive.Buckets

/-! `HASH_EXPAND_BUCKETS`: the items of a table are handed out over twice as many buckets. -/
namespace AnkiDrive
open CModel

variable {hh hh₀ : Handles} {buckets : List HashBucket} {n k ideal steps : Nat}
  {items moved chain : List Ptr} {chains : Nat → List Ptr} {p : Ptr} {e : Expansion}

/-- The multiplier of a bucket, as its length leaves it. -/
def multOf (ideal count : Nat) : Nat := if ideal < count then count / ideal else 0

/-- The items moved so far lie in the new buckets, and the links forward of the others are
what they were. -/
structure Moved (hh₀ : Handles) (n ideal : Nat) (moved : List Ptr) (e : Expansion) : Prop where
  filed : ∃ chains, Filed e.hh e.newBuckets (n * 2) moved chains
  same : SameItems hh₀ e.hh
  apps : appLinks e.hh = appLinks hh₀
  nexts : ∀ p, p ∉ moved → (bktLinks e.hh).next p = (bktLinks hh₀).next p
  mults : ∀ i < n * 2, (e.newBuckets.getD i HashBucket.zero).expandMult =
    multOf ideal (e.newBuckets.getD i HashBucket.zero).count

theorem setHhNext_setHhPrev (hh : Handles) (p : Ptr) (o r : Option Ptr) :
    setHhNext (setHhPrev hh p r) p o = setHhPrev (setHhNext hh p o) p r := by
  funext q
  by_cases same : q = p <;> simp [setHhNext, setHhPrev, store, same]

theorem hashExpandBuckets.item_hh (n ideal : Nat) (e : Expansion) (p : Ptr) :
    (hashExpandBuckets.item n ideal e p).hh =
      bktPush e.hh (e.newBuckets.getD (bktOf e.hh (n * 2) p) HashBucket.zero).hhHead p := by
  simp only [hashExpandBuckets.item, setHhNext_setHhPrev, bktPush, bktOf]

theorem multOf_succ (ideal count : Nat) :
    (if ideal < count + 1 then (count + 1) / ideal else multOf ideal count) =
      multOf ideal (count + 1) := by
  simp only [multOf]
  split
  · rfl
  · rename_i few
    rw [if_neg fun crowded => few (Nat.lt_succ_of_lt crowded)]

theorem Moved.item (held : Moved hh₀ n ideal moved e) (power : n * 2 = 2 ^ k)
    (distinct : (moved ++ [p]).Nodup) :
    Moved hh₀ n ideal (moved ++ [p]) (hashExpandBuckets.item n ideal e p) := by
  obtain ⟨chains, filed⟩ := held.filed
  have hh := hashExpandBuckets.item_hh n ideal e p
  have inside : bktOf e.hh (n * 2) p < n * 2 := hashToBkt_lt _ power
  constructor
  · rw [hh]
    exact ⟨_, filed.push power distinct rfl rfl rfl⟩
  · rw [hh]
    exact held.same.trans (sameItems_bktPush _ _ p)
  · rw [hh, appLinks_bktPush]
    exact held.apps
  · intro q unmoved
    simp only [List.mem_append, List.mem_singleton, not_or] at unmoved
    rw [hh, bktLinks_bktPush, Links.push_next_ne unmoved.2]
    exact held.nexts q unmoved.1
  · intro i within
    simp only [hashExpandBuckets.item]
    by_cases here : bktOf e.hh (n * 2) p = i
    · obtain rfl := here
      have old := held.mults _ within
      simp only [bktOf] at within old ⊢
      rw [getD_set_same (filed.length ▸ within)]
      dsimp only
      rw [old]
      exact multOf_succ ..
    · simp only [bktOf] at here
      rw [getD_set_ne here]
      exact held.mults i within

theorem Moved.along {start : Option Ptr} (held : Moved hh₀ n ideal moved e)
    (power : n * 2 = 2 ^ k) (distinct : (moved ++ chain).Nodup)
    (path : (bktLinks hh₀).Path start chain) (enough : chain.length ≤ steps) :
    ∃ e', hashExpandBuckets.chain n ideal steps start e = .ok e' ∧
      Moved hh₀ n ideal (moved ++ chain) e' := by
  induction chain generalizing moved e start steps with
  | nil =>
    obtain rfl : start = none := path
    refine ⟨e, by cases steps <;> rfl, ?_⟩
    rwa [List.append_nil]
  | cons p chain ih =>
    obtain ⟨rfl, rest⟩ := path
    cases steps with
    | zero => simp at enough
    | succ steps =>
      have split : moved ++ p :: chain = moved ++ [p] ++ chain := by simp
      rw [split] at distinct ⊢
      have first := (List.nodup_append'.mp distinct).1
      have unmoved : p ∉ moved :=
        ((List.nodup_concat moved p).mp (List.concat_eq_append ▸ first)).1
      have next : (e.hh p).hhNext = (bktLinks hh₀).next p := held.nexts p unmoved
      unfold hashExpandBuckets.chain
      rw [next]
      exact ih (held.item power first) distinct rest (Nat.le_of_succ_le_succ enough)

theorem Moved.overAll {cs : List (List Ptr)} (held : Moved hh₀ n ideal moved e)
    (power : n * 2 = 2 ^ k) (distinct : (moved ++ cs.flatten).Nodup)
    (paths : List.Forall₂ (fun b c => (bktLinks hh₀).Path b.hhHead c) buckets cs)
    (enough : ∀ c ∈ cs, c.length ≤ steps) :
    ∃ e', hashExpandBuckets.chains n ideal steps buckets e = .ok e' ∧
      Moved hh₀ n ideal (moved ++ cs.flatten) e' := by
  induction paths generalizing moved e with
  | nil =>
    refine ⟨e, rfl, ?_⟩
    simpa using held
  | @cons b c buckets cs path _ ih =>
    rw [List.flatten_cons, ← List.append_assoc] at distinct ⊢
    have first := (List.nodup_append'.mp distinct).1
    obtain ⟨e₁, ran, held₁⟩ := held.along power first path (enough c List.mem_cons_self)
    obtain ⟨e₂, rest, held₂⟩ :=
      ih held₁ distinct fun c inside => enough c (List.mem_cons_of_mem _ inside)
    refine ⟨e₂, ?_, held₂⟩
    unfold hashExpandBuckets.chains
    rw [ran]
    exact rest

theorem filter_lt_perm (f : Ptr → Nat) (items : List Ptr) (n : Nat) :
    (((List.range n).map fun i => items.filter fun p => f p = i).flatten).Perm
      (items.filter fun p => f p < n) := by
  induction n with
  | zero => simp
  | succ n ih =>
    have parts := List.filter_append_perm (fun p => decide (f p < n))
      (items.filter fun p => f p < n + 1)
    rw [List.filter_filter, List.filter_filter] at parts
    have below : (items.filter fun p => decide (f p < n) && decide (f p < n + 1)) =
        items.filter fun p => f p < n := by
      apply List.filter_congr
      intro p _
      by_cases small : f p < n
      · simp [small, Nat.lt_succ_of_lt small]
      · simp [small]
    have last : (items.filter fun p => (!decide (f p < n)) && decide (f p < n + 1)) =
        items.filter fun p => f p = n := by
      apply List.filter_congr
      intro p _
      by_cases here : f p = n
      · simp [here]
      · by_cases small : f p < n
        · simp [here, small]
        · have large : ¬ f p < n + 1 := by omega
          simp [here, large]
    rw [below, last] at parts
    rw [List.range_succ, List.map_append, List.flatten_append]
    simp only [List.map_cons, List.map_nil, List.flatten_cons, List.flatten_nil, List.append_nil]
    exact (ih.append_right _).trans parts

theorem perm_flatten_map {f g : Nat → List Ptr} (same : ∀ i < n, (f i).Perm (g i)) :
    (((List.range n).map f).flatten).Perm ((List.range n).map g).flatten := by
  induction n with
  | zero => exact List.Perm.refl _
  | succ n ih =>
    simp only [List.range_succ, List.map_append, List.flatten_append, List.map_cons, List.map_nil,
      List.flatten_cons, List.flatten_nil, List.append_nil]
    exact (ih fun i small => same i (Nat.lt_succ_of_lt small)).append (same n (Nat.lt_succ_self n))

theorem Filed.flatten_perm (filed : Filed hh buckets n items chains) (power : n = 2 ^ k) :
    (((List.range n).map chains).flatten).Perm items := by
  have parts := (perm_flatten_map filed.members).trans (filter_lt_perm (bktOf hh n) items n)
  have all : (items.filter fun p => bktOf hh n p < n) = items := by
    rw [List.filter_eq_self]
    intro p _
    exact decide_eq_true (hashToBkt_lt _ power)
  rwa [all] at parts

theorem Filed.paths (filed : Filed hh buckets n items chains) :
    List.Forall₂ (fun b c => (bktLinks hh).Path b.hhHead c) buckets ((List.range n).map chains) := by
  rw [List.forall₂_iff_get]
  refine ⟨by simp [filed.length], fun i inside _ => ?_⟩
  have within : i < n := filed.length ▸ inside
  have path := (filed.holds i within).linked.path
  simpa [List.getD_eq_getElem?_getD, inside] using path

/-- `ceil(n/b)` for a power of two. -/
def idealOf (numItems numBuckets log2NumBuckets : Nat) : Nat :=
  (numItems >>> (log2NumBuckets + 1)) + (if numItems &&& (numBuckets * 2 - 1) ≠ 0 then 1 else 0)

theorem idealOf_bounds {m l : Nat} (power : n = 2 ^ l) :
    m ≤ idealOf m n l * (n * 2) ∧ idealOf m n l * (n * 2) < m + n * 2 := by
  have twice : n * 2 = 2 ^ (l + 1) := by rw [power, Nat.pow_succ]
  have positive : 0 < n * 2 := by
    rw [twice]
    exact Nat.two_pow_pos _
  have parts := Nat.div_add_mod m (n * 2)
  have below := Nat.mod_lt m positive
  rw [idealOf, Nat.shiftRight_eq_div_pow, ← twice]
  have masked : m &&& (n * 2 - 1) = m % (n * 2) := by
    rw [twice, Nat.and_two_pow_sub_one_eq_mod]
  rw [masked]
  split
  · rw [Nat.add_mul, Nat.one_mul, Nat.mul_comm (m / (n * 2))]
    omega
  · rename_i even
    rw [Nat.add_zero, Nat.mul_comm (m / (n * 2))]
    omega

/-- What the expansion of a table leaves. -/
structure Expanded (hh : Handles) (tbl : HashTable) (items : List Ptr) (hh' : Handles)
    (tbl' : HashTable) : Prop where
  filed : ∃ chains, Filed hh' tbl'.buckets tbl'.numBuckets items chains
  same : SameItems hh hh'
  apps : appLinks hh' = appLinks hh
  numBuckets : tbl'.numBuckets = tbl.numBuckets * 2
  log2NumBuckets : tbl'.log2NumBuckets = tbl.log2NumBuckets + 1
  numItems : tbl'.numItems = tbl.numItems
  tail : tbl'.tail = tbl.tail
  mults : ∀ i < tbl'.numBuckets, (tbl'.buckets.getD i HashBucket.zero).expandMult =
    multOf (idealOf tbl.numItems tbl.numBuckets tbl.log2NumBuckets)
      (tbl'.buckets.getD i HashBucket.zero).count

theorem hashExpandBuckets_ok {tbl : HashTable} {malloc : Nat → Bool}
    (filed : Filed hh tbl.buckets tbl.numBuckets items chains)
    (power : tbl.numBuckets = 2 ^ tbl.log2NumBuckets) (distinct : items.Nodup)
    (counted : tbl.numItems = items.length)
    (granted : malloc (2 * tbl.numBuckets % 0x100000000 * HashBucket.size) = true) :
    ∃ hh' tbl', hashExpandBuckets malloc hh tbl = .ok (hh', tbl') ∧
      Expanded hh tbl items hh' tbl' := by
  have twice : tbl.numBuckets * 2 = 2 ^ (tbl.log2NumBuckets + 1) := by
    rw [power, Nat.pow_succ]
  have all := filed.flatten_perm power
  have start : Moved hh tbl.numBuckets
      (idealOf tbl.numItems tbl.numBuckets tbl.log2NumBuckets) [] {
        hh := hh
        newBuckets := List.replicate (2 * tbl.numBuckets) HashBucket.zero
        nonidealItems := 0 } := by
    rw [Nat.mul_comm]
    refine ⟨⟨_, filed_nil hh _⟩, fun _ => ⟨rfl, rfl⟩, rfl, fun _ _ => rfl, fun i within => ?_⟩
    simp [List.getD_eq_getElem?_getD, within, HashBucket.zero, multOf]
  have short : ∀ c ∈ (List.range tbl.numBuckets).map chains, c.length ≤ tbl.numItems := by
    intro c inside
    obtain ⟨i, within, rfl⟩ := List.mem_map.mp inside
    rw [counted]
    exact filed.length_chain_le (List.mem_range.mp within)
  obtain ⟨e, ran, moved⟩ := start.overAll twice (by simpa using all.nodup_iff.mpr distinct)
    filed.paths short
  rw [List.nil_append] at moved
  obtain ⟨chains', filed'⟩ := moved.filed
  simp only [hashExpandBuckets, granted, Bool.true_eq_false, if_false]
  simp only [idealOf] at ran
  rw [ran]
  refine ⟨_, _, rfl, ⟨chains', filed'.perm all⟩, moved.same, moved.apps, rfl, rfl, rfl, rfl, ?_⟩
  exact moved.mults

theorem hashExpandBuckets_refused {tbl : HashTable} {malloc : Nat → Bool}
    (refused : malloc (2 * tbl.numBuckets % 0x100000000 * HashBucket.size) = false) :
    hashExpandBuckets malloc hh tbl =
      .error (.outOfMemory (2 * tbl.numBuckets % 0x100000000 * HashBucket.size)) := by
  simp only [hashExpandBuckets, refused, if_true]

end AnkiDrive
