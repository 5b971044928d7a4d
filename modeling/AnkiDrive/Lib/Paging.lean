import Mathlib.Data.List.Basic
import Mathlib.Tactic.Common
import AnkiDrive.Lib.Dialogue

/-! Lists that are read page by page: the entries cover ranges of numbers one behind the other,
and a page is a front of the entries from some number on. -/
namespace CModel

section Paging

variable {ε : Type} (first last : ε → Nat)

/-- Each entry lies behind the one before it. -/
structure Ordered (entries : List ε) : Prop where
  apart : entries.Pairwise fun d e => last d < first e
  forward : ∀ e ∈ entries, first e ≤ last e

def entriesFrom (entries : List ε) (n : Nat) : List ε := entries.filter fun e => n ≤ first e

structure Page (entries : List ε) (n : Nat) (page : List ε) : Prop where
  nonempty : page ≠ []
  front : page <+: entriesFrom first entries n

variable {first last} {entries page : List ε} {n : Nat} {e : ε}

theorem entriesFrom_all (low : ∀ e ∈ entries, n ≤ first e) : entriesFrom first entries n = entries :=
  List.filter_eq_self.mpr fun e inside => decide_eq_true (low e inside)

theorem entriesFrom_none (high : ∀ e ∈ entries, first e < n) :
    entriesFrom first entries n = [] := by
  refine List.filter_eq_nil_iff.mpr fun e inside => ?_
  have below := high e inside
  simp
  omega

theorem Page.take (paged : Page first entries n page) {count : Nat} (positive : 0 < count) :
    Page first entries n (page.take count) := by
  refine ⟨fun empty => ?_, (List.take_prefix count page).trans paged.front⟩
  rw [List.take_eq_nil_iff] at empty
  rcases empty with zero | nothing
  · omega
  · exact paged.nonempty nothing

theorem Page.rest (paged : Page first entries n page) (ordered : Ordered first last entries)
    (ends : page.getLast? = some e) :
    entriesFrom first entries n = page ++ entriesFrom first entries (last e + 1) := by
  obtain ⟨rest, whole⟩ := paged.front
  obtain ⟨before, rfl⟩ := List.getLast?_eq_some_iff.mp ends
  have sub : (before ++ [e] ++ rest).Sublist entries := whole ▸ List.filter_sublist
  have sorted := ordered.apart.sublist sub
  have forward : ∀ d ∈ before ++ [e] ++ rest, first d ≤ last d :=
    fun d inside => ordered.forward d (sub.subset inside)
  have here : e ∈ entriesFrom first entries n := whole ▸ by simp
  have low : n ≤ last e := by
    have above := of_decide_eq_true (List.mem_filter.mp here).2
    have ahead := forward e (by simp)
    omega
  have later : entriesFrom first entries (last e + 1) =
      (entriesFrom first entries n).filter fun d => last e + 1 ≤ first d := by
    unfold entriesFrom
    rw [List.filter_filter]
    refine List.filter_congr fun d _ => ?_
    simp
    omega
  have behind : (before ++ [e]).filter (fun d => last e + 1 ≤ first d) = [] := by
    refine List.filter_eq_nil_iff.mpr fun d inside => ?_
    have ahead := forward d (List.mem_append_left rest inside)
    rw [List.append_assoc, List.singleton_append, List.pairwise_append] at sorted
    rcases List.mem_append.mp inside with old | same
    · have apart := sorted.2.2 d old e List.mem_cons_self
      have step := forward e (by simp)
      simp
      omega
    · obtain rfl := List.mem_singleton.mp same
      simp
      omega
  have ahead : rest.filter (fun d => last e + 1 ≤ first d) = rest := by
    refine List.filter_eq_self.mpr fun d inside => decide_eq_true ?_
    rw [List.pairwise_append] at sorted
    exact sorted.2.2 e (by simp) d inside
  rw [later, ← whole, List.filter_append, behind, ahead, List.nil_append]

section Reading

variable {α β σ ρ τ ν : Type} {answers : τ → α → β → τ → Prop} {next : σ → β → Turn α σ ρ}

/-- A dialogue that asks for the entries behind each page comes to have all of them. -/
theorem EndsIn.of_pages (ordered : Ordered first last entries) (num : ν → Nat) (request : ν → α)
    (held : List ε → σ) (result : List ε → ρ)
    (step : ∀ n seen t answer t', answers t (request n) answer t' →
      entriesFrom first entries (num n) = [] ∧ next (held seen) answer = .done (result seen) ∨
      ∃ page e, Page first entries (num n) page ∧ page.getLast? = some e ∧
        (entriesFrom first entries (last e + 1) = [] ∧
            next (held seen) answer = .done (result (seen ++ page)) ∨
          ∃ m, num m = last e + 1 ∧
            next (held seen) answer = .ask (request m) (held (seen ++ page))))
    (n : ν) (seen : List ε) (t : τ) :
    EndsIn answers next (fun _ r => r = result (seen ++ entriesFrom first entries (num n))) t
      (.ask (request n) (held seen)) := by
  generalize count : (entriesFrom first entries (num n)).length = left
  induction left using Nat.strongRecOn generalizing n seen t with
  | ind left ih =>
    refine .ask fun answer t' answered => ?_
    rcases step n seen t answer t' answered with ⟨none_left, ended⟩ | ⟨page, e, paged, ends, more⟩
    · rw [ended, none_left, List.append_nil]
      exact .done rfl
    · have split := paged.rest ordered ends
      rcases more with ⟨none_left, ended⟩ | ⟨m, behind, asked⟩
      · rw [ended, split, none_left, List.append_nil]
        exact .done rfl
      · have some_read := List.length_pos_iff.mpr paged.nonempty
        rw [split, List.length_append, ← behind] at count
        rw [asked, split, ← List.append_assoc, ← behind]
        exact ih (entriesFrom first entries (num m)).length (by omega) m (seen ++ page) t' rfl

end Reading

end Paging

end CModel
