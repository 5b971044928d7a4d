import Mathlib.Data.List.Nodup
import Mathlib.Logic.Function.Basic
import Mathlib.Tactic.Common

/-! Doubly linked lists through pointers kept in their nodes. The nodes belong to somebody
else: a list is where its links lead, and storing into a node that is not on it leaves it
as it was. -/
namespace CModel

/-- The node behind and the node in front of every node. -/
structure Links (α : Type) where
  next : α → Option α
  prev : α → Option α

namespace Links

variable {α : Type}

/-- The nodes `as` linked both ways: `start` leads to the first, `before` is in front of it,
`last` is the last one (`before` when there is none) and `stop` is behind it. -/
def Segment (l : Links α) (before start : Option α) : List α → Option α → Option α → Prop
  | [], last, stop => before = last ∧ start = stop
  | a :: as, last, stop =>
    start = some a ∧ l.prev a = before ∧ l.Segment (some a) (l.next a) as last stop

/-- A whole list. -/
def Chain (l : Links α) (head : Option α) (as : List α) (tail : Option α) : Prop :=
  l.Segment none head as tail none

def Path (l : Links α) (start : Option α) : List α → Prop
  | [] => start = none
  | a :: as => start = some a ∧ l.Path (l.next a) as

variable {l l' : Links α} {before start last stop head tail : Option α} {as bs : List α} {a b : α}

@[simp] theorem segment_nil :
    l.Segment before start [] last stop ↔ before = last ∧ start = stop := Iff.rfl

@[simp] theorem segment_cons :
    l.Segment before start (a :: as) last stop ↔
      start = some a ∧ l.prev a = before ∧ l.Segment (some a) (l.next a) as last stop := Iff.rfl

theorem segment_append :
    l.Segment before start (as ++ bs) last stop ↔
      ∃ m n, l.Segment before start as m n ∧ l.Segment m n bs last stop := by
  induction as generalizing before start with
  | nil => simp
  | cons a as ih =>
    simp only [List.cons_append, segment_cons, ih]
    constructor
    · rintro ⟨at', front, m, n, first, second⟩
      exact ⟨m, n, ⟨at', front, first⟩, second⟩
    · rintro ⟨m, n, ⟨at', front, first⟩, second⟩
      exact ⟨at', front, m, n, first, second⟩

theorem Segment.congr (held : l.Segment before start as last stop)
    (nexts : ∀ a ∈ as, l'.next a = l.next a) (prevs : ∀ a ∈ as, l'.prev a = l.prev a) :
    l'.Segment before start as last stop := by
  induction as generalizing before start with
  | nil => exact held
  | cons a as ih =>
    obtain ⟨at', front, rest⟩ := held
    have here : l'.next a = l.next a := nexts a List.mem_cons_self
    refine ⟨at', (prevs a List.mem_cons_self).trans front, ?_⟩
    rw [here]
    exact ih rest (fun b inside => nexts b (List.mem_cons_of_mem a inside))
      fun b inside => prevs b (List.mem_cons_of_mem a inside)

theorem Segment.start_eq (held : l.Segment before start as last stop) :
    start = as.head?.or stop := by
  cases as with
  | nil => exact held.2
  | cons a as => exact held.1

theorem Segment.last_eq (held : l.Segment before start as last stop) :
    last = as.getLast?.or before := by
  induction as generalizing before start with
  | nil => exact held.1.symm
  | cons a as ih =>
    rw [ih held.2.2, List.getLast?_cons]
    cases as.getLast? <;> rfl

theorem Chain.head_eq (held : l.Chain head as tail) : head = as.head? := by
  simpa using Segment.start_eq held

theorem Chain.tail_eq (held : l.Chain head as tail) : tail = as.getLast? := by
  simpa using Segment.last_eq held

theorem Chain.around (held : l.Chain head (as ++ a :: bs) tail) :
    l.prev a = as.getLast? ∧ l.next a = bs.head? := by
  obtain ⟨m, n, first, rfl, front, second⟩ := segment_append.mp held
  have ends := Segment.last_eq first
  have starts := Segment.start_eq second
  rw [Option.or_none] at ends starts
  exact ⟨front.trans ends, starts⟩

/-- The first node of what is left without `a`. -/
theorem Chain.first_unlink (held : l.Chain head (as ++ a :: bs) tail) :
    (if l.prev a = none then l.next a else head) = (as ++ bs).head? := by
  obtain ⟨front, behind⟩ := held.around
  rw [front, behind, held.head_eq]
  cases as with
  | nil => simp
  | cons b as => simp [List.getLast?_cons]

/-- In a list a node is not its own neighbour. -/
theorem Chain.loopless (held : l.Chain head (as ++ a :: bs) tail)
    (distinct : (as ++ a :: bs).Nodup) : l.prev a ≠ some a := by
  intro last
  rw [held.around.1] at last
  exact (List.nodup_append'.mp distinct).2.2 (List.mem_of_mem_getLast? last) List.mem_cons_self

theorem Segment.path (held : l.Segment before start as last none) : l.Path start as := by
  induction as generalizing before start with
  | nil => exact held.2
  | cons a as ih => exact ⟨held.1, ih held.2.2⟩

theorem Path.congr (held : l.Path start as) (nexts : ∀ a ∈ as, l'.next a = l.next a) :
    l'.Path start as := by
  induction as generalizing start with
  | nil => exact held
  | cons a as ih =>
    refine ⟨held.1, ?_⟩
    rw [nexts a List.mem_cons_self]
    exact ih held.2 fun b inside => nexts b (List.mem_cons_of_mem a inside)

section Stores

variable [DecidableEq α]

def setNext (l : Links α) (a : α) (o : Option α) : Links α :=
  { l with next := Function.update l.next a o }

def setPrev (l : Links α) (a : α) (o : Option α) : Links α :=
  { l with prev := Function.update l.prev a o }

def patchNext (l : Links α) (p o : Option α) : Links α :=
  match p with
  | none => l
  | some a => l.setNext a o

def patchPrev (l : Links α) (p o : Option α) : Links α :=
  match p with
  | none => l
  | some a => l.setPrev a o

/-- A new node in front of the one that `head` points to. -/
def push (l : Links α) (head : Option α) (a : α) : Links α :=
  ((l.setNext a head).setPrev a none).patchPrev head (some a)

/-- A new node behind the one that `tail` points to. -/
def append (l : Links α) (tail : Option α) (a : α) : Links α :=
  ((l.setNext a none).patchNext tail (some a)).setPrev a tail

def unlink (l : Links α) (a : α) : Links α :=
  let l := l.patchNext (l.prev a) (l.next a)
  l.patchPrev (l.next a) (l.prev a)

@[simp] theorem setNext_next_same (o : Option α) : (l.setNext a o).next a = o :=
  Function.update_self ..

theorem setNext_next_ne (o : Option α) (apart : b ≠ a) : (l.setNext a o).next b = l.next b :=
  Function.update_of_ne apart ..

@[simp] theorem setNext_prev (o : Option α) : (l.setNext a o).prev = l.prev := rfl

@[simp] theorem setPrev_prev_same (o : Option α) : (l.setPrev a o).prev a = o :=
  Function.update_self ..

theorem setPrev_prev_ne (o : Option α) (apart : b ≠ a) : (l.setPrev a o).prev b = l.prev b :=
  Function.update_of_ne apart ..

@[simp] theorem setPrev_next (o : Option α) : (l.setPrev a o).next = l.next := rfl

@[simp] theorem patchNext_prev (p o : Option α) : (l.patchNext p o).prev = l.prev := by
  cases p <;> rfl

@[simp] theorem patchPrev_next (p o : Option α) : (l.patchPrev p o).next = l.next := by
  cases p <;> rfl

theorem patchPrev_patchNext_prev (p o q r : Option α) :
    ((l.patchNext p o).patchPrev q r).prev = (l.patchPrev q r).prev := by
  cases p <;> cases q <;> rfl

theorem patchNext_next_ne {p : Option α} (o : Option α) (apart : p ≠ some b) :
    (l.patchNext p o).next b = l.next b := by
  cases p with
  | none => rfl
  | some a => exact setNext_next_ne o fun same => apart (congrArg some same.symm)

theorem patchPrev_prev_ne {p : Option α} (o : Option α) (apart : p ≠ some b) :
    (l.patchPrev p o).prev b = l.prev b := by
  cases p with
  | none => rfl
  | some a => exact setPrev_prev_ne o fun same => apart (congrArg some same.symm)

theorem Segment.patchPrev (held : l.Segment before start as last stop) (distinct : as.Nodup)
    (outside : as = [] → start = none) (o : Option α) :
    (l.patchPrev start o).Segment o start as (as.getLast?.or o) stop := by
  cases as with
  | nil =>
    obtain rfl := outside rfl
    exact ⟨rfl, held.2⟩
  | cons a as =>
    obtain ⟨rfl, -, rest⟩ := held
    have fresh : a ∉ as := (List.nodup_cons.mp distinct).1
    refine ⟨rfl, setPrev_prev_same o, ?_⟩
    have ends : last = (a :: as).getLast?.or o := by
      rw [Segment.last_eq rest, List.getLast?_cons]
      cases as.getLast? <;> rfl
    rw [← ends]
    exact rest.congr (fun _ _ => rfl) fun b inside =>
      setPrev_prev_ne o fun same => fresh (same ▸ inside)

theorem Segment.patchNext (held : l.Segment none start as last stop) (distinct : as.Nodup)
    (o : Option α) :
    (l.patchNext last o).Segment none (as.head?.or o) as last o := by
  rcases List.eq_nil_or_concat as with rfl | ⟨as, a, rfl⟩
  · obtain ⟨rfl, -⟩ := held
    exact ⟨rfl, rfl⟩
  · rw [List.concat_eq_append] at held distinct ⊢
    obtain ⟨m, n, first, rfl, front, rfl, -⟩ := segment_append.mp held
    have fresh : a ∉ as := ((List.nodup_concat as a).mp (List.concat_eq_append ▸ distinct)).1
    have starts := Segment.start_eq first
    refine segment_append.mpr ⟨m, some a, ?_, rfl, front, rfl, setNext_next_same o⟩
    have same : (as ++ [a]).head?.or o = start := by
      rw [starts]
      cases as <;> rfl
    rw [same]
    exact first.congr (fun b inside => setNext_next_ne o fun same => fresh (same ▸ inside))
      fun _ _ => rfl

theorem push_next_ne (apart : b ≠ a) : (l.push head a).next b = l.next b := by
  simp only [push, patchPrev_next, setPrev_next]
  exact setNext_next_ne head apart

theorem push_prev_ne (apart : b ≠ a) (unlinked : head ≠ some b) :
    (l.push head a).prev b = l.prev b := by
  rw [push, patchPrev_prev_ne _ unlinked, setPrev_prev_ne _ apart, setNext_prev]

theorem Chain.push (held : l.Chain head as tail) (distinct : (a :: as).Nodup) :
    (l.push head a).Chain (some a) (a :: as) (as.getLast?.or (some a)) := by
  obtain ⟨fresh, distinct⟩ := List.nodup_cons.mp distinct
  have starts := held.head_eq
  have inside : ((l.setNext a head).setPrev a none).Segment none head as tail none :=
    Segment.congr held (fun b inside => setNext_next_ne head fun same => fresh (same ▸ inside))
      fun b inside => setPrev_prev_ne none fun same => fresh (same ▸ inside)
  have outside : as = [] → head = none := by
    rintro rfl
    exact starts
  have unheld : head ≠ some a := by
    intro first
    rw [starts] at first
    exact fresh (List.mem_of_mem_head? first)
  refine ⟨rfl, ?_, ?_⟩
  · rw [Links.push, patchPrev_prev_ne _ unheld, setPrev_prev_same]
  · have behind : (l.push head a).next a = head := by
      simp only [Links.push, patchPrev_next, setPrev_next, setNext_next_same]
    rw [behind]
    exact inside.patchPrev distinct outside (some a)

theorem Chain.append (held : l.Chain head as tail) (distinct : (as ++ [a]).Nodup) :
    (l.append tail a).Chain (head.or (some a)) (as ++ [a]) (some a) := by
  have fresh : a ∉ as := ((List.nodup_concat as a).mp (List.concat_eq_append ▸ distinct)).1
  have distinct : as.Nodup := (List.nodup_append'.mp distinct).1
  have starts := held.head_eq
  have ends := held.tail_eq
  have unheld : tail ≠ some a := by
    intro final
    rw [ends] at final
    exact fresh (List.mem_of_mem_getLast? final)
  have inside : (l.setNext a none).Segment none head as tail none :=
    Segment.congr held (fun b inside => setNext_next_ne none fun same => fresh (same ▸ inside))
      fun _ _ => rfl
  have linked := inside.patchNext distinct (some a)
  rw [← starts] at linked
  refine segment_append.mpr ⟨tail, some a, ?_, rfl, setPrev_prev_same tail, rfl, ?_⟩
  · exact linked.congr (fun _ _ => rfl) fun b inside =>
      setPrev_prev_ne tail fun same => fresh (same ▸ inside)
  · rw [Links.append, setPrev_next, patchNext_next_ne _ unheld, setNext_next_same]

theorem unlink_next_ne (apart : l.prev a ≠ some b) : (l.unlink a).next b = l.next b := by
  simp only [unlink, patchPrev_next]
  exact patchNext_next_ne _ apart

theorem unlink_prev_ne (loopless : l.prev a ≠ some a) (apart : l.next a ≠ some b) :
    (l.unlink a).prev b = l.prev b := by
  have kept : (l.patchNext (l.prev a) (l.next a)).next a = l.next a :=
    patchNext_next_ne _ loopless
  simp only [unlink, kept, patchPrev_prev_ne _ apart, patchNext_prev]

theorem Chain.unlink (held : l.Chain head (as ++ a :: bs) tail)
    (distinct : (as ++ a :: bs).Nodup) :
    (l.unlink a).Chain (as ++ bs).head? (as ++ bs) (as ++ bs).getLast? := by
  obtain ⟨front, behind⟩ := held.around
  obtain ⟨m, n, first, rfl, before, second⟩ := segment_append.mp held
  obtain ⟨firsts, seconds, apart⟩ := List.nodup_append'.mp distinct
  obtain ⟨fresh, seconds⟩ := List.nodup_cons.mp seconds
  obtain rfl := before
  have kept : (l.patchNext (l.prev a) (l.next a)).next a = l.next a :=
    patchNext_next_ne _ (held.loopless distinct)
  have left := first.patchNext firsts (l.next a)
  have outside : bs = [] → l.next a = none := by
    rintro rfl
    exact behind
  have right := Segment.patchPrev second seconds outside (l.prev a)
  have joined : (l.unlink a).Chain (as.head?.or (l.next a)) (as ++ bs)
      (bs.getLast?.or (l.prev a)) := by
    refine segment_append.mpr ⟨l.prev a, l.next a, ?_, ?_⟩
    · refine left.congr (fun b inside => ?_) fun b inside => ?_
      · simp only [Links.unlink, patchPrev_next]
      · have other : l.next a ≠ some b := by
          intro same
          rw [behind] at same
          exact apart inside (List.mem_cons_of_mem a (List.mem_of_mem_head? same))
        simp only [Links.unlink, kept, patchPrev_prev_ne _ other, patchNext_prev]
    · refine right.congr (fun b inside => ?_) fun b inside => ?_
      · have other : l.prev a ≠ some b := by
          intro same
          rw [front] at same
          exact apart (List.mem_of_mem_getLast? same) (List.mem_cons_of_mem a inside)
        simp only [Links.unlink, patchPrev_next]
        exact patchNext_next_ne _ other
      · simp only [Links.unlink, kept, patchPrev_patchNext_prev, patchNext_prev]
  rw [List.head?_append, List.getLast?_append, ← front, ← behind]
  exact joined

theorem Chain.last_unlink (held : l.Chain head (as ++ a :: bs) tail)
    (distinct : (as ++ a :: bs).Nodup) :
    (if tail = some a then l.prev a else tail) = (as ++ bs).getLast? := by
  have fresh : a ∉ bs := (List.nodup_cons.mp (List.nodup_append'.mp distinct).2.1).1
  rw [held.around.1, held.tail_eq]
  rcases List.eq_nil_or_concat bs with rfl | ⟨bs, b, rfl⟩
  · simp
  · have other : b ≠ a := by
      rintro rfl
      exact fresh (by simp)
    have before : (as ++ a :: bs.concat b).getLast? = some b := by
      rw [List.concat_eq_append, ← List.cons_append, ← List.append_assoc]
      exact List.getLast?_concat
    have after : (as ++ bs.concat b).getLast? = some b := by
      rw [List.concat_eq_append, ← List.append_assoc]
      exact List.getLast?_concat
    rw [before, after, if_neg fun same => other (Option.some.inj same)]

end Stores

end Links

end CModel
