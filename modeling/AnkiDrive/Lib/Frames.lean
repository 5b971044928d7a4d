import Mathlib.Data.List.Basic
import Mathlib.Tactic.Common

/-! Frames in a byte stream: a size byte, and as many bytes as it says. A stream of
frames falls apart into the same frames again, so what can be read back from each
frame can be read back from the stream. -/
namespace CModel

def frame (body : List UInt8) : List UInt8 := UInt8.ofNat body.length :: body

/-- Take the size byte, read that many further bytes, and go on behind them. -/
def unframe : List UInt8 → Option (List (List UInt8))
  | [] => some []
  | size :: rest =>
    if size.toNat ≤ rest.length then
      (unframe (rest.drop size.toNat)).map (rest.take size.toNat :: ·)
    else none
termination_by bytes => bytes.length
decreasing_by
  simp only [List.length_drop, List.length_cons]
  omega

theorem unframe_frame_append {body : List UInt8} (short : body.length ≤ 255) (rest : List UInt8) :
    unframe (frame body ++ rest) = (unframe rest).map (body :: ·) := by
  have size : (UInt8.ofNat body.length).toNat = body.length :=
    UInt8.toNat_ofNat_of_lt (Nat.lt_succ_of_le short)
  have fits : body.length ≤ (body ++ rest).length := by simp
  rw [frame, List.cons_append, unframe, size, if_pos fits, List.take_left, List.drop_left]

theorem unframe_frames {bodies : List (List UInt8)} (short : ∀ b ∈ bodies, b.length ≤ 255) :
    unframe (bodies.flatMap frame) = some bodies := by
  induction bodies with
  | nil => rw [List.flatMap_nil, unframe]
  | cons body bodies ih =>
    have first := short body List.mem_cons_self
    have rest := ih fun b hb => short b (List.mem_cons_of_mem body hb)
    rw [List.flatMap_cons, unframe_frame_append first, rest, Option.map_some]

section Stream

variable {α : Type} (decode : List UInt8 → Option α)

def decodeStream (bytes : List UInt8) : Option (List α) :=
  (unframe bytes).bind fun bodies => bodies.mapM decode

theorem mapM_decode {items : List (α × List UInt8)} (read : ∀ x ∈ items, decode x.2 = some x.1) :
    (items.map Prod.snd).mapM decode = some (items.map Prod.fst) := by
  induction items with
  | nil => rfl
  | cons x items ih =>
    have first := read x List.mem_cons_self
    have rest := ih fun y hy => read y (List.mem_cons_of_mem x hy)
    simp only [List.map_cons, List.mapM_cons, first, rest]
    rfl

theorem decodeStream_frames {items : List (α × List UInt8)}
    (read : ∀ x ∈ items, decode x.2 = some x.1) (short : ∀ x ∈ items, x.2.length ≤ 255) :
    decodeStream decode (items.flatMap fun x => frame x.2) = some (items.map Prod.fst) := by
  have bodies : ∀ b ∈ items.map Prod.snd, b.length ≤ 255 := by
    intro b hb
    obtain ⟨x, hx, rfl⟩ := List.mem_map.mp hb
    exact short x hx
  have split := unframe_frames bodies
  rw [List.flatMap_map] at split
  rw [decodeStream, split, Option.bind_some, mapM_decode decode read]

end Stream

end CModel
