import AnkiDrive.Advertisement
import AnkiDrive.Lib.Walk

/-! The loops of `eir.c` and of `advertisement.c` are the same walk with different visits. -/
namespace AnkiDrive
open CModel

/-- The body of the scan's loop: the next record goes into the array. -/
def visitScan (type len : UInt8) (p : Nat) (s : UInt8 × Option Memory) :
    Query Nat UInt8 (Except (UInt8 × Option Memory) (UInt8 × Option Memory)) := do
  let records ← storeRecord s.2 s.1 type len p
  return .ok (s.1 + 1, records)

/-- The `switch` of the parser, a `return` out of which ends the walk. -/
def visitRecord (type len : UInt8) (p : Nat) (adv : Option Memory) :
    Query Nat UInt8 (Except (UInt8 × Option Memory) (Option Memory)) := do
  let handled ← ankiVehicleParseAdvRecord.switch type p (len - 1) adv
  return handled.mapError (fun code => (code, adv))

def finishParse (adv : Option Memory) : UInt8 × Option Memory :=
  (ankiVehicleParseAdvRecord.verdict adv, adv)

theorem scan_eq_walk (n : Nat) (records : Option Memory) (k : UInt8) (i : Nat) :
    bleAdvParseScan.loop n records k i = walk visitScan id n (k, records) i := by
  by_cases h : i < n
  · rw [bleAdvParseScan.loop, dif_pos h, walk_unfold visitScan id _ h]
    refine congrArg (Query.read i >>= ·) (funext fun len => ?_)
    split
    · rfl
    · refine congrArg (Query.read (i + 1) >>= ·) (funext fun type => ?_)
      unfold advTypeInvalid
      split
      · rfl
      · unfold visitScan
        rw [Query.bind_assoc]
        refine congrArg (storeRecord records k type len (i + 2) >>= ·) (funext fun stored => ?_)
        exact scan_eq_walk n stored (k + 1) (i + 1 + len.toNat)
  · rw [bleAdvParseScan.loop, dif_neg h, walk_done visitScan id _ (by omega)]
    rfl
termination_by n - i

theorem parse_eq_walk (n : Nat) (adv : Option Memory) (i : Nat) :
    ankiVehicleParseAdvRecord.loop n adv i = walk visitRecord finishParse n adv i := by
  by_cases h : i < n
  · rw [ankiVehicleParseAdvRecord.loop, dif_pos h, walk_unfold visitRecord finishParse _ h]
    refine congrArg (Query.read i >>= ·) (funext fun len => ?_)
    split
    · rfl
    · refine congrArg (Query.read (i + 1) >>= ·) (funext fun type => ?_)
      unfold advTypeInvalid
      split
      · rfl
      · unfold visitRecord
        rw [Query.bind_assoc]
        refine congrArg (ankiVehicleParseAdvRecord.switch type (i + 2) (len - 1) adv >>= ·)
          (funext fun handled => ?_)
        cases handled with
        | error code => rfl
        | ok after => exact parse_eq_walk n after (i + 1 + len.toNat)
  · rw [ankiVehicleParseAdvRecord.loop, dif_neg h, walk_done visitRecord finishParse _ (by omega)]
    rfl
termination_by n - i

end AnkiDrive
