import Mathlib.Data.List.Induction
import Mathlib.Data.List.Nodup
import Mathlib.Tactic.Common

/-! A find-or-create store: every input belongs to a key, the entry of that key is created
when it is first needed and updated in place, and each update puts something out. The
entry of a key, and what is put out at its inputs, are those of a run on the inputs of
that key alone. -/
namespace CModel

/-- `create` makes the entry of a key, `update` handles one input and keeps the key. -/
structure Registry (κ ι β ω : Type) where
  key : ι → κ
  keyOf : β → κ
  create : κ → β
  update : ι → β → β × ω
  create_key : ∀ k, keyOf (create k) = k
  update_key : ∀ i b, keyOf (update i b).1 = keyOf b

namespace Registry

variable {κ ι β ω : Type} [DecidableEq κ] (R : Registry κ ι β ω)

def lookup (entries : List β) (k : κ) : Option β := entries.find? (fun b => R.keyOf b = k)

def overwrite : List β → β → List β
  | [], _ => []
  | e :: entries, b => if R.keyOf e = R.keyOf b then b :: entries else e :: overwrite entries b

def visit (entries : List β) (i : ι) : List β × ω :=
  let (b, entries) := match R.lookup entries (R.key i) with
    | some b => (b, entries)
    | none => (R.create (R.key i), entries ++ [R.create (R.key i)])
  let (b, w) := R.update i b
  (R.overwrite entries b, w)

def run (entries : List β) (is : List ι) : List β := is.foldl (fun es i => (R.visit es i).1) entries

/-- Every input of a run beside what is put out at it. -/
def trace : List β → List ι → List (ι × ω)
  | _, [] => []
  | entries, i :: is => (i, (R.visit entries i).2) :: trace (R.visit entries i).1 is

def entry (entries : List β) (k : κ) : β := (R.lookup entries k).getD (R.create k)

/-- The entry of a key after the inputs of that key. -/
def ownEntry (k : κ) (is : List ι) : β := is.foldl (fun b i => (R.update i b).1) (R.create k)

def own (k : κ) (is : List ι) : List ι := is.filter (fun i => R.key i = k)

variable {R} {entries entries' : List β} {k : κ} {b : β} {i : ι} {is : List ι}

theorem lookup_key (found : R.lookup entries k = some b) : R.keyOf b = k := by
  simpa using List.find?_some found

theorem lookup_isSome : (R.lookup entries k).isSome ↔ k ∈ entries.map R.keyOf := by
  simp only [lookup, List.find?_isSome, decide_eq_true_eq, List.mem_map]

theorem lookup_overwrite_same (held : R.keyOf b ∈ entries.map R.keyOf) :
    R.lookup (R.overwrite entries b) (R.keyOf b) = some b := by
  induction entries with
  | nil => cases held
  | cons e entries ih =>
    rw [overwrite]
    split
    · simp [lookup]
    · rename_i other
      have later : R.keyOf b ∈ entries.map R.keyOf := by
        simpa [Ne.symm other] using held
      have rest := ih later
      simpa [lookup, other] using rest

theorem lookup_overwrite_other (other : R.keyOf b ≠ k) :
    R.lookup (R.overwrite entries b) k = R.lookup entries k := by
  induction entries with
  | nil => rfl
  | cons e entries ih =>
    rw [overwrite]
    split
    · rename_i same
      have apart : R.keyOf e ≠ k := same ▸ other
      simp [lookup, other, apart]
    · simp only [lookup, List.find?_cons] at ih ⊢
      rw [ih]

theorem keys_overwrite : (R.overwrite entries b).map R.keyOf = entries.map R.keyOf := by
  induction entries with
  | nil => rfl
  | cons e entries ih =>
    rw [overwrite]
    split
    · rename_i same
      simp only [List.map_cons, same]
    · simp only [List.map_cons, ih]

variable (R entries i) in
theorem visit_eq : ∃ es, R.visit entries i =
      (R.overwrite es (R.update i (R.entry entries (R.key i))).1,
        (R.update i (R.entry entries (R.key i))).2) ∧
    R.keyOf (R.entry entries (R.key i)) = R.key i ∧
    es.map R.keyOf = (if R.key i ∈ entries.map R.keyOf then entries.map R.keyOf
      else entries.map R.keyOf ++ [R.key i]) ∧
    ∀ k, k ≠ R.key i → R.lookup es k = R.lookup entries k := by
  cases found : R.lookup entries (R.key i) with
  | some b =>
    have held : R.key i ∈ entries.map R.keyOf := lookup_isSome.mp (by simp [found])
    refine ⟨entries, ?_, ?_, (if_pos held).symm, fun _ _ => rfl⟩
    · simp only [visit, entry, found, Option.getD_some]
    · simpa only [entry, found, Option.getD_some] using lookup_key found
  | none =>
    have unheld : R.key i ∉ entries.map R.keyOf := by
      rw [← lookup_isSome, found]
      simp
    refine ⟨entries ++ [R.create (R.key i)], ?_, ?_, ?_, ?_⟩
    · simp only [visit, entry, found, Option.getD_none]
    · simp only [entry, found, Option.getD_none, R.create_key]
    · simp only [List.map_append, List.map_cons, List.map_nil, R.create_key, if_neg unheld]
    · intro k other
      have fresh : ¬ R.keyOf (R.create (R.key i)) = k := by
        rw [R.create_key]
        exact Ne.symm other
      simp only [lookup, List.find?_append, List.find?_cons, fresh, decide_false, List.find?_nil,
        Option.or_none]

theorem visit_output : (R.visit entries i).2 = (R.update i (R.entry entries (R.key i))).2 := by
  obtain ⟨es, visited, _⟩ := visit_eq R entries i
  rw [visited]

theorem visit_same :
    R.lookup (R.visit entries i).1 (R.key i) = some (R.update i (R.entry entries (R.key i))).1 := by
  obtain ⟨es, visited, key, keys, _⟩ := visit_eq R entries i
  have kept : R.keyOf (R.update i (R.entry entries (R.key i))).1 = R.key i :=
    (R.update_key i _).trans key
  have held : R.keyOf (R.update i (R.entry entries (R.key i))).1 ∈ es.map R.keyOf := by
    rw [kept, keys]
    split
    · assumption
    · simp
  have found := lookup_overwrite_same held
  rw [kept] at found
  rw [visited]
  exact found

theorem visit_other (other : k ≠ R.key i) :
    R.lookup (R.visit entries i).1 k = R.lookup entries k := by
  obtain ⟨es, visited, key, _, apart⟩ := visit_eq R entries i
  have kept : R.keyOf (R.update i (R.entry entries (R.key i))).1 ≠ k := by
    rw [R.update_key, key]
    exact Ne.symm other
  rw [visited]
  exact (lookup_overwrite_other kept).trans (apart k other)

theorem visit_keys : (R.visit entries i).1.map R.keyOf =
    if R.key i ∈ entries.map R.keyOf then entries.map R.keyOf
    else entries.map R.keyOf ++ [R.key i] := by
  obtain ⟨es, visited, _, keys, _⟩ := visit_eq R entries i
  rw [visited]
  exact keys_overwrite.trans keys

theorem run_append (is js : List ι) : R.run entries (is ++ js) = R.run (R.run entries is) js :=
  List.foldl_append

theorem keys_run_nodup (distinct : (entries.map R.keyOf).Nodup) :
    ((R.run entries is).map R.keyOf).Nodup := by
  induction is generalizing entries with
  | nil => exact distinct
  | cons i is ih =>
    apply ih
    rw [visit_keys]
    split
    · exact distinct
    · rename_i unheld
      exact List.nodup_append'.mpr ⟨distinct, List.nodup_singleton _, by simpa using unheld⟩

theorem mem_keys_run (entries : List β) : k ∈ (R.run entries is).map R.keyOf ↔
    k ∈ entries.map R.keyOf ∨ k ∈ is.map R.key := by
  induction is generalizing entries with
  | nil => simp [run]
  | cons i is ih =>
    have here := ih (R.visit entries i).1
    rw [visit_keys] at here
    refine here.trans ?_
    rw [List.map_cons, List.mem_cons]
    split
    · rename_i held
      constructor
      · rintro (old | later)
        · exact Or.inl old
        · exact Or.inr (Or.inr later)
      · rintro (old | rfl | later)
        · exact Or.inl old
        · exact Or.inl held
        · exact Or.inr later
    · simp only [List.mem_append, List.mem_singleton, or_assoc]

theorem entry_run (k : κ) (is : List ι) : R.entry (R.run [] is) k = R.ownEntry k (R.own k is) := by
  induction is using List.reverseRecOn with
  | nil => rfl
  | append_singleton is i ih =>
    have last : R.run [] (is ++ [i]) = (R.visit (R.run [] is) i).1 := run_append is [i]
    rw [last]
    rcases eq_or_ne (R.key i) k with rfl | other
    · have split : R.own (R.key i) (is ++ [i]) = R.own (R.key i) is ++ [i] := by
        simp [own, List.filter_append]
      rw [entry, visit_same, split, ownEntry, List.foldl_append, ih]
      rfl
    · have split : R.own k (is ++ [i]) = R.own k is := by
        simp [own, List.filter_append, other]
      rw [entry, visit_other (Ne.symm other), split]
      exact ih

theorem output_run (is : List ι) (i : ι) :
    (R.visit (R.run [] is) i).2 = (R.update i (R.ownEntry (R.key i) (R.own (R.key i) is))).2 := by
  rw [visit_output, entry_run]

/-- The entries of a run are those of the runs on the inputs of one key each. -/
theorem mem_run (held : b ∈ R.run [] is) : b = R.ownEntry (R.keyOf b) (R.own (R.keyOf b) is) := by
  have distinct : ((R.run [] is).map R.keyOf).Nodup := keys_run_nodup List.nodup_nil
  have some : (R.lookup (R.run [] is) (R.keyOf b)).isSome :=
    lookup_isSome.mpr (List.mem_map_of_mem held)
  obtain ⟨c, found⟩ := Option.isSome_iff_exists.mp some
  have same : c = b :=
    List.inj_on_of_nodup_map distinct (List.mem_of_find?_eq_some found) held (lookup_key found)
  rw [← entry_run, entry, found, Option.getD_some, same]

theorem trace_own (agree : R.lookup entries k = R.lookup entries' k) (is : List ι) :
    (R.trace entries is).filter (fun x => R.key x.1 = k) = R.trace entries' (R.own k is) := by
  induction is generalizing entries entries' with
  | nil => rfl
  | cons i is ih =>
    rw [trace]
    rcases eq_or_ne (R.key i) k with rfl | other
    · have split : R.own (R.key i) (i :: is) = i :: R.own (R.key i) is := by simp [own]
      have same : R.entry entries (R.key i) = R.entry entries' (R.key i) := by
        simp only [entry, agree]
      have after : R.lookup (R.visit entries i).1 (R.key i) =
          R.lookup (R.visit entries' i).1 (R.key i) := by
        simp only [visit_same, same]
      rw [split, trace, List.filter_cons_of_pos (by simp), ih after, visit_output, visit_output, same]
    · have split : R.own k (i :: is) = R.own k is := by simp [own, other]
      have after : R.lookup (R.visit entries i).1 k = R.lookup entries' k :=
        (visit_other (Ne.symm other)).trans agree
      rw [split, List.filter_cons_of_neg (by simpa using other), ih after]

end Registry

section History

variable {ι : Type} {P : List ι → ι → Prop}

def Happened (P : List ι → ι → Prop) (is : List ι) : Prop :=
  ∃ before i after, is = before ++ i :: after ∧ P before i

theorem happened_nil : ¬ Happened P [] := by
  rintro ⟨before, i, after, split, _⟩
  simp at split

theorem happened_concat {is : List ι} {i : ι} : Happened P (is ++ [i]) ↔ Happened P is ∨ P is i := by
  constructor
  · rintro ⟨before, j, after, split, here⟩
    rcases List.eq_nil_or_concat after with rfl | ⟨after, k, rfl⟩
    · obtain ⟨rfl, last⟩ := List.append_inj' split rfl
      cases last
      exact Or.inr here
    · rw [List.concat_eq_append, ← List.cons_append, ← List.append_assoc] at split
      obtain ⟨rfl, _⟩ := List.append_inj' split rfl
      exact Or.inl ⟨before, j, after, rfl, here⟩
  · rintro (⟨before, j, after, rfl, here⟩ | here)
    · exact ⟨before, j, after ++ [i], by simp, here⟩
    · exact ⟨is, i, [], rfl, here⟩

theorem happened_cons {i : ι} {is : List ι} :
    Happened P (i :: is) ↔ P [] i ∨ Happened (fun before => P (i :: before)) is := by
  constructor
  · rintro ⟨before, j, after, split, here⟩
    cases before with
    | nil =>
      cases split
      exact Or.inl here
    | cons k before =>
      cases split
      exact Or.inr ⟨before, j, after, rfl, here⟩
  · rintro (here | ⟨before, j, after, rfl, here⟩)
    · exact ⟨[], i, is, rfl, here⟩
    · exact ⟨i :: before, j, after, rfl, here⟩

instance happenedDecidable : ∀ (is : List ι) (P : List ι → ι → Prop)
    [∀ before, DecidablePred (P before)], Decidable (Happened P is)
  | [], _, _ => isFalse happened_nil
  | i :: is, P, _ =>
    have := happenedDecidable is fun before => P (i :: before)
    decidable_of_iff (P [] i ∨ Happened (fun before => P (i :: before)) is) happened_cons.symm

/-- What happens in a part of a history, seen from the whole of it. -/
theorem happened_filter {p : ι → Bool} {is : List ι} :
    Happened P (is.filter p) ↔ Happened (fun before i => p i = true ∧ P (before.filter p) i) is := by
  induction is using List.reverseRecOn with
  | nil => exact ⟨fun never => absurd never happened_nil, fun never => absurd never happened_nil⟩
  | append_singleton is i ih =>
    rw [happened_concat, List.filter_append, ← ih]
    cases kept : p i with
    | true => simp only [List.filter_cons_of_pos kept, List.filter_nil, happened_concat, true_and]
    | false => simp [kept]

theorem happened_congr {Q : List ι → ι → Prop} {is : List ι}
    (same : ∀ before i after, is = before ++ i :: after → (P before i ↔ Q before i)) :
    Happened P is ↔ Happened Q is := by
  constructor
  · rintro ⟨before, i, after, split, here⟩
    exact ⟨before, i, after, split, (same before i after split).mp here⟩
  · rintro ⟨before, i, after, split, here⟩
    exact ⟨before, i, after, split, (same before i after split).mpr here⟩

theorem happened_first {is : List ι} :
    Happened P is ↔ Happened (fun before i => P before i ∧ ¬ Happened P before) is := by
  constructor
  · induction is using List.reverseRecOn with
    | nil => exact fun never => absurd never happened_nil
    | append_singleton is i ih =>
      intro happened
      rcases Classical.em (Happened P is) with earlier | never
      · exact happened_concat.mpr (Or.inl (ih earlier))
      · have here := (happened_concat.mp happened).resolve_left never
        exact happened_concat.mpr (Or.inr ⟨here, never⟩)
  · rintro ⟨before, i, after, split, here, _⟩
    exact ⟨before, i, after, split, here⟩

end History

end CModel
