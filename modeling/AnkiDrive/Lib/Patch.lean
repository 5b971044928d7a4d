import AnkiDrive.Lib.Memory
import Mathlib.Data.List.Dedup
import Mathlib.Data.Finset.Dedup

/-! Patches: stores whose outcome does not depend on what was there before.
A patch keeps some bits of every byte and sets others. Patches compose, a patch
applied twice is the patch applied once, and patches to different bytes commute;
so what a set of them leaves behind depends neither on order nor on repetition. -/
namespace CModel

/-- Byte `a` becomes `old &&& keep a ||| set a`. -/
structure Patch where
  keep : Nat → UInt8
  set : Nat → UInt8

namespace Patch

def apply (P : Patch) (m : Memory) : Memory := fun a => m a &&& P.keep a ||| P.set a

protected def id : Patch := ⟨fun _ => 0xff, fun _ => 0⟩

def then_ (P Q : Patch) : Patch :=
  ⟨fun a => P.keep a &&& Q.keep a, fun a => P.set a &&& Q.keep a ||| Q.set a⟩

def write (p : Nat) (bs : List UInt8) : Patch where
  keep a := if p ≤ a ∧ a < p + bs.length then 0 else 0xff
  set a := if p ≤ a ∧ a < p + bs.length then bs.getD (a - p) 0 else 0

/-- Replace the bits of byte `p` under `mask` by those of `v`. -/
def writeBits (p : Nat) (mask v : UInt8) : Patch where
  keep a := if a = p then ~~~mask else 0xff
  set a := if a = p then v &&& mask else 0

def Leaves (P : Patch) (a : Nat) : Prop := P.keep a = 0xff ∧ P.set a = 0

def Within (P : Patch) (lo hi : Nat) : Prop := ∀ a, a < lo ∨ hi ≤ a → P.Leaves a

private theorem byte_ext {x y : UInt8} (same : ∀ i < 8, x.toBitVec.getLsbD i = y.toBitVec.getLsbD i) :
    x = y :=
  UInt8.toBitVec_inj.mp (BitVec.eq_of_getLsbD_eq same)

theorem byte_keep_twice (x k v : UInt8) : (x &&& k ||| v) &&& k ||| v = x &&& k ||| v := by
  apply byte_ext
  intro i _
  simp
  grind

theorem byte_then (x k v k' v' : UInt8) :
    x &&& (k &&& k') ||| (v &&& k' ||| v') = (x &&& k ||| v) &&& k' ||| v' := by
  apply byte_ext
  intro i _
  simp
  grind

theorem byte_full (x : UInt8) : x &&& 0xff ||| 0 = x := by
  have full : (0xff : UInt8) = -1 := rfl
  rw [full, UInt8.and_neg_one, UInt8.or_zero]

@[simp] theorem apply_id (m : Memory) : Patch.id.apply m = m := funext fun a => byte_full (m a)

theorem apply_then (P Q : Patch) (m : Memory) : (P.then_ Q).apply m = Q.apply (P.apply m) :=
  funext fun _ => byte_then _ _ _ _ _

theorem apply_twice (P : Patch) (m : Memory) : P.apply (P.apply m) = P.apply m :=
  funext fun _ => byte_keep_twice _ _ _

theorem apply_leaves {P : Patch} {a : Nat} (untouched : P.Leaves a) (m : Memory) :
    P.apply m a = m a := by
  simp only [apply, untouched.1, untouched.2, byte_full]

theorem loadBit_leaves {P : Patch} {p : Nat} (untouched : P.Leaves p) (m : Memory) (k : Nat) :
    (P.apply m).loadBit p k = m.loadBit p k := by
  simp only [Memory.loadBit, apply_leaves untouched]

theorem load16_leaves {P : Patch} {p : Nat} (first : P.Leaves p) (second : P.Leaves (p + 1))
    (m : Memory) : (P.apply m).load16 p = m.load16 p := by
  simp only [Memory.load16, apply_leaves first, apply_leaves second]

theorem slice_leaves {P : Patch} {p k : Nat} (untouched : ∀ a, p ≤ a → a < p + k → P.Leaves a)
    (m : Memory) : slice (P.apply m) p k = slice m p k :=
  slice_congr fun a lo hi => apply_leaves (untouched a lo hi) m

theorem leaves_of_apply {P : Patch} {a : Nat} (same : ∀ m, P.apply m a = m a) : P.Leaves a := by
  have clear : (0 : UInt8) &&& P.keep a ||| P.set a = 0 := same (fun _ => 0)
  have filled : (0xff : UInt8) &&& P.keep a ||| P.set a = 0xff := same (fun _ => 0xff)
  have none : P.set a = 0 := by simpa using clear
  have full : (0xff : UInt8) = -1 := rfl
  rw [none, UInt8.or_zero, full, UInt8.neg_one_and] at filled
  exact ⟨filled, none⟩

theorem apply_comm {P Q : Patch} (apart : ∀ a, P.Leaves a ∨ Q.Leaves a) (m : Memory) :
    Q.apply (P.apply m) = P.apply (Q.apply m) := by
  funext a
  rcases apart a with p | q
  · have inner : P.apply m a = m a := apply_leaves p m
    rw [apply_leaves p]
    simp only [apply] at inner ⊢
    rw [inner]
  · have inner : Q.apply m a = m a := apply_leaves q m
    rw [apply_leaves q]
    simp only [apply] at inner ⊢
    rw [inner]

@[simp] theorem apply_write (p : Nat) (bs : List UInt8) (m : Memory) :
    (write p bs).apply m = m.write p bs := by
  funext a
  by_cases hit : p ≤ a ∧ a < p + bs.length
  · simp [apply, write, Memory.write, hit]
  · simp only [apply, write, Memory.write, if_neg hit, byte_full]

theorem flag_getLsbD {k : Nat} (h : k < 8) (i : Nat) :
    ((1 : UInt8) <<< UInt8.ofNat k).toBitVec.getLsbD i = decide (i = k) := by
  by_cases small : i < 8
  · have all : ∀ k < 8, ∀ i < 8,
        ((1 : UInt8) <<< UInt8.ofNat k).toBitVec.getLsbD i = decide (i = k) := by decide
    exact all k h i small
  · have apart : i ≠ k := by omega
    rw [BitVec.getLsbD_of_ge _ _ (by omega), decide_eq_false apart]

theorem flag_test (s : UInt8) {k : Nat} (h : k < 8) :
    (s &&& 1 <<< UInt8.ofNat k == 1 <<< UInt8.ofNat k) = s.toBitVec.getLsbD k := by
  rw [Bool.eq_iff_iff, beq_iff_eq]
  constructor
  · intro same
    have bit := congrArg (fun b : UInt8 => b.toBitVec.getLsbD k) same
    simpa only [UInt8.toBitVec_and, BitVec.getLsbD_and, flag_getLsbD h, decide_true, Bool.and_true]
      using bit
  · intro set
    apply byte_ext
    intro i _
    rw [UInt8.toBitVec_and, BitVec.getLsbD_and, flag_getLsbD h]
    by_cases here : i = k
    · simp [here, set]
    · simp [here]

theorem byte_flag (x s : UInt8) {k : Nat} (h : k < 8) :
    (if s.toBitVec.getLsbD k then x ||| 1 <<< UInt8.ofNat k else x &&& ~~~(1 <<< UInt8.ofNat k)) =
      x &&& ~~~(1 <<< UInt8.ofNat k) ||| s &&& 1 <<< UInt8.ofNat k := by
  have bits := flag_getLsbD h
  generalize (1 : UInt8) <<< UInt8.ofNat k = flag at bits ⊢
  apply byte_ext
  intro i small
  by_cases here : i = k
  · subst here
    cases set : s.toBitVec.getLsbD i <;> simp [-BitVec.getLsbD_eq_getElem, bits, set, small]
  · cases s.toBitVec.getLsbD k <;> simp [-BitVec.getLsbD_eq_getElem, bits, here, small]

theorem storeBit_flag (m : Memory) (p : Nat) (s : UInt8) {k : Nat} (h : k < 8) :
    m.storeBit p k (s &&& 1 <<< UInt8.ofNat k == 1 <<< UInt8.ofNat k) =
      (writeBits p (1 <<< UInt8.ofNat k) s).apply m := by
  funext a
  rw [flag_test s h, Memory.storeBit]
  by_cases here : a = p
  · subst here
    simp only [Memory.store_same, apply, writeBits, if_pos, byte_flag _ _ h]
  · rw [Memory.store_other m _ here]
    simp only [apply, writeBits, if_neg here, byte_full]

theorem apply_writeBits_twice (m : Memory) (p : Nat) (f g v : UInt8) :
    (writeBits p g v).apply ((writeBits p f v).apply m) = (writeBits p (f ||| g) v).apply m := by
  funext a
  by_cases here : a = p
  · simp only [apply, writeBits, if_pos here]
    apply byte_ext
    intro i _
    simp
    grind
  · simp only [apply, writeBits, if_neg here, byte_full]

theorem loadBit_writeBits (m : Memory) (p k : Nat) (mask v : UInt8)
    (masked : mask.toBitVec.getLsbD k = true) :
    ((writeBits p mask v).apply m).loadBit p k = v.toBitVec.getLsbD k := by
  have inside : k < 8 := by
    by_contra out
    rw [BitVec.getLsbD_of_ge _ _ (by omega)] at masked
    cases masked
  simp [Memory.loadBit, apply, writeBits, -BitVec.getLsbD_eq_getElem, masked, inside]

theorem id_within (lo hi : Nat) : Patch.id.Within lo hi := fun _ _ => ⟨rfl, rfl⟩

theorem then_within {P Q : Patch} {lo hi : Nat} (hP : P.Within lo hi) (hQ : Q.Within lo hi) :
    (P.then_ Q).Within lo hi := by
  intro a out
  have p := hP a out
  have q := hQ a out
  simp [Leaves, then_, p.1, p.2, q.1, q.2]

theorem write_within {p lo hi : Nat} {bs : List UInt8} (below : lo ≤ p)
    (fits : p + bs.length ≤ hi) : (write p bs).Within lo hi := by
  intro a out
  have miss : ¬ (p ≤ a ∧ a < p + bs.length) := by omega
  simp only [Leaves, write, if_neg miss, and_self]

theorem writeBits_within {p lo hi : Nat} (mask v : UInt8) (below : lo ≤ p) (above : p < hi) :
    (writeBits p mask v).Within lo hi := by
  intro a out
  have miss : a ≠ p := by omega
  simp only [Leaves, writeBits, if_neg miss, and_self]

theorem leaves_of_then {P Q : Patch} {a : Nat} (untouched : (P.then_ Q).Leaves a) : Q.Leaves a := by
  have full : (0xff : UInt8) = -1 := rfl
  have kept : P.keep a &&& Q.keep a = 0xff := untouched.1
  have set : P.set a &&& Q.keep a ||| Q.set a = 0 := untouched.2
  have keep : Q.keep a = 0xff := by
    have absorb : Q.keep a ||| (P.keep a &&& Q.keep a) = Q.keep a := by
      apply byte_ext
      intro i _
      simp
    rw [kept, full, UInt8.or_neg_one] at absorb
    exact absorb.symm
  refine ⟨keep, ?_⟩
  have both := UInt8.or_eq_zero_iff.mp set
  exact both.2

theorem within_mono {P : Patch} {lo hi lo' hi' : Nat} (h : P.Within lo hi) (below : lo' ≤ lo)
    (above : hi ≤ hi') : P.Within lo' hi' :=
  fun a out => h a (by omega)

theorem write_touches {p i : Nat} {bs : List UInt8} (h : i < bs.length) :
    ¬ (write p bs).Leaves (p + i) := by
  intro untouched
  have hit : p ≤ p + i ∧ p + i < p + bs.length := by omega
  have kept := untouched.1
  simp only [write, if_pos hit] at kept
  exact absurd kept (by decide)

def seq : List Patch → Patch
  | [] => Patch.id
  | P :: Ps => P.then_ (seq Ps)

theorem apply_seq (Ps : List Patch) (m : Memory) :
    (seq Ps).apply m = Ps.foldl (fun m P => P.apply m) m := by
  induction Ps generalizing m with
  | nil => exact apply_id m
  | cons P Ps ih => rw [seq, apply_then, List.foldl_cons, ih]

theorem seq_leaves {Ps : List Patch} {a : Nat} (all : ∀ P ∈ Ps, P.Leaves a) :
    (seq Ps).Leaves a := by
  induction Ps with
  | nil => exact ⟨rfl, rfl⟩
  | cons P Ps ih =>
    have p := all P List.mem_cons_self
    have ps := ih (fun Q hQ => all Q (List.mem_cons_of_mem P hQ))
    simp [Leaves, seq, then_, p.1, p.2, ps.1, ps.2]

end Patch

section Replay

variable {σ α : Type} (f : σ → α → σ)

theorem foldl_absorb {x : α} {xs : List α} (member : x ∈ xs)
    (comm : ∀ y ∈ xs, ∀ s, f (f s x) y = f (f s y) x) (idem : ∀ s, f (f s x) x = f s x) (s : σ) :
    xs.foldl f (f s x) = xs.foldl f s := by
  induction xs generalizing s with
  | nil => cases member
  | cons y ys ih =>
    rcases List.mem_cons.mp member with rfl | later
    · simp only [List.foldl_cons, idem]
    · have rest := ih later (fun z hz => comm z (List.mem_cons_of_mem y hz)) (f s y)
      simp only [List.foldl_cons, comm y List.mem_cons_self s, rest]

theorem foldl_absorb_all {xs ys : List α} (members : ∀ x ∈ xs, x ∈ ys)
    (comm : ∀ x ∈ ys, ∀ y ∈ ys, ∀ s, f (f s x) y = f (f s y) x)
    (idem : ∀ x ∈ ys, ∀ s, f (f s x) x = f s x) (s : σ) :
    ys.foldl f (xs.foldl f s) = ys.foldl f s := by
  induction xs generalizing s with
  | nil => rfl
  | cons x xs ih =>
    have hx := members x List.mem_cons_self
    rw [List.foldl_cons, ih (fun y hy => members y (List.mem_cons_of_mem x hy)),
      foldl_absorb f hx (comm x hx) (idem x hx)]

/-- Commuting, idempotent updates: only which of them were made matters. -/
theorem foldl_same_members {xs ys : List α} (same : ∀ x, x ∈ xs ↔ x ∈ ys)
    (comm : ∀ x ∈ xs, ∀ y ∈ xs, ∀ s, f (f s x) y = f (f s y) x)
    (idem : ∀ x ∈ xs, ∀ s, f (f s x) x = f s x) (s : σ) : xs.foldl f s = ys.foldl f s := by
  have comm' : ∀ x ∈ ys, ∀ y ∈ ys, ∀ s, f (f s x) y = f (f s y) x :=
    fun x hx y hy => comm x ((same x).mpr hx) y ((same y).mpr hy)
  have idem' : ∀ x ∈ ys, ∀ s, f (f s x) x = f s x := fun x hx => idem x ((same x).mpr hx)
  have both : (xs ++ ys).foldl f s = (ys ++ xs).foldl f s := by
    apply List.perm_append_comm.foldl_eq'
    intro x hx y hy t
    have inx : ∀ z, z ∈ xs ++ ys → z ∈ xs := fun z hz =>
      (List.mem_append.mp hz).elim id (same z).mpr
    exact comm x (inx x hx) y (inx y hy) t
  have left : ys.foldl f (xs.foldl f s) = ys.foldl f s :=
    foldl_absorb_all f (fun x hx => (same x).mp hx) comm' idem' s
  have right : xs.foldl f (ys.foldl f s) = xs.foldl f s :=
    foldl_absorb_all f (fun x hx => (same x).mpr hx) comm idem s
  rw [List.foldl_append, List.foldl_append, left, right] at both
  exact both.symm

/-- Lists with the same members under one map have the same members under every map that
the first one determines. -/
theorem mem_map_determined {α β γ δ : Type} {as : List α} {bs : List β} {f : α → γ} {f' : β → γ}
    {g : α → δ} {g' : β → δ} (determined : ∀ a ∈ as, ∀ b ∈ bs, f a = f' b → g a = g' b)
    (same : ∀ c, c ∈ as.map f ↔ c ∈ bs.map f') (d : δ) : d ∈ as.map g ↔ d ∈ bs.map g' := by
  constructor
  · intro member
    obtain ⟨a, ha, rfl⟩ := List.mem_map.mp member
    obtain ⟨b, hb, equal⟩ := List.mem_map.mp ((same _).mp (List.mem_map_of_mem ha))
    exact List.mem_map.mpr ⟨b, hb, (determined a ha b hb equal.symm).symm⟩
  · intro member
    obtain ⟨b, hb, rfl⟩ := List.mem_map.mp member
    obtain ⟨a, ha, equal⟩ := List.mem_map.mp ((same _).mpr (List.mem_map_of_mem hb))
    exact List.mem_map.mpr ⟨a, ha, determined a ha b hb equal⟩

/-- Among commuting updates any one can be taken for the last. -/
theorem foldl_last_of_mem {xs : List α} {x : α} (member : x ∈ xs)
    (comm : ∀ y ∈ xs, ∀ z ∈ xs, ∀ s, f (f s y) z = f (f s z) y) (s : σ) :
    ∃ t, xs.foldl f s = f t x := by
  obtain ⟨as, bs, rfl⟩ := List.append_of_mem member
  have moved : (as ++ x :: bs).Perm ((as ++ bs) ++ [x]) :=
    List.perm_middle.trans (List.perm_append_singleton x (as ++ bs)).symm
  refine ⟨(as ++ bs).foldl f s, ?_⟩
  rw [moved.foldl_eq' (fun y hy z hz t => comm y hy z hz t), List.foldl_append]
  rfl

/-- Where a step keeps an invariant exactly when it is of a good kind, a run keeps it
all the way exactly when all its steps are. -/
theorem foldl_invariant_iff {I : σ → Prop} {good : α → Prop} {xs : List α}
    (step : ∀ x ∈ xs, ∀ s, I s → (I (f s x) ↔ good x)) {s : σ} (start : I s) :
    (∀ x ∈ xs, good x) ↔ ∀ ys, ys <+: xs → I (ys.foldl f s) := by
  induction xs generalizing s with
  | nil =>
    simp only [List.prefix_nil, forall_eq, List.foldl_nil, start, List.not_mem_nil, false_imp_iff,
      implies_true]
  | cons x xs ih =>
    have first := step x List.mem_cons_self s start
    have rest := fun after : I (f s x) => ih (fun y hy => step y (List.mem_cons_of_mem x hy)) after
    constructor
    · intro all ys front
      have after := first.mpr (all x List.mem_cons_self)
      cases ys with
      | nil => exact start
      | cons y ys =>
        obtain ⟨rfl, tail⟩ := List.cons_prefix_cons.mp front
        exact (rest after).mp (fun z hz => all z (List.mem_cons_of_mem y hz)) ys tail
    · intro way
      have after : I (f s x) := way [x] (List.cons_prefix_cons.mpr ⟨rfl, List.nil_prefix⟩)
      have later := (rest after).mpr fun ys front =>
        way (x :: ys) (List.cons_prefix_cons.mpr ⟨rfl, front⟩)
      intro y hy
      rcases List.mem_cons.mp hy with rfl | tail
      · exact first.mp after
      · exact later y tail

end Replay

end CModel
