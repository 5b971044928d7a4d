import AnkiDrive.Handles

/-! Switching notifications on. What is written to is named by the properties of the write
characteristic, a set of flags, in the place of a handle. -/
namespace AnkiDrive

def notified : List Output → List UInt16
  | [] => []
  | .gattWriteCmd _ handle [0x01, 0x00] :: outputs => handle :: notified outputs
  | _ :: outputs => notified outputs

/-- Behind the value of a characteristic, and in front of the next declaration. -/
def GattChar.Owns (chars : GattChar) (after : List GattChar) (handle : UInt16) : Prop :=
  chars.valueHandle < handle ∧ ∀ next ∈ after.head?, handle < next.handle

instance (chars : GattChar) (after : List GattChar) : DecidablePred (chars.Owns after) :=
  fun _ => inferInstanceAs (Decidable (_ ∧ _))

theorem notified_append (outputs more : List Output) :
    notified (outputs ++ more) = notified outputs ++ notified more := by
  fun_induction notified outputs with
  | case1 => rfl
  | case2 _ handle outputs ih => simp only [List.cons_append, notified, ih]
  | case3 o outputs other ih =>
    simp only [List.cons_append, notified, ih]

theorem notified_foundLines (kind : String) (chars : GattChar) :
    notified (foundLines kind chars) = [] := rfl

theorem loop_notifies_nothing (vehicle : AnkiVehicle) (characteristics : List GattChar) :
    notified (discoverCharCb.loop vehicle characteristics).2 = [] := by
  induction characteristics generalizing vehicle with
  | nil => rfl
  | cons chars characteristics ih =>
    simp only [discoverCharCb.loop, notified_append, ih, List.append_nil]
    split <;> split <;> simp only [notified_foundLines, notified, List.append_nil]

theorem discovery_notifies (s : Tool) {characteristics : List GattChar} {r w : GattChar}
    (read : (characteristics.filter isAnkiReadChar).getLast? = some r)
    (write : (characteristics.filter isAnkiWriteChar).getLast? = some w) :
    notified (discoverCharCb s characteristics 0).2 =
      if 0 < r.handle ∧ 0 < w.handle then [w.properties.toUInt16] else [] := by
  have readChar := loop_char .read s.vehicle characteristics
  have writeChar := loop_char .write s.vehicle characteristics
  simp only [isAnkiChar, AnkiVehicle.char, read, write, Option.getD_some] at readChar writeChar
  simp only [discoverCharCb, ne_eq, not_true_eq_false, if_false, notified_append,
    loop_notifies_nothing, List.nil_append, readChar, writeChar]
  split <;> rfl

theorem last_of_kind {α : Type} {p : α → Bool} {before after : List α} {a : α} (found : p a = true)
    (last : ∀ b ∈ after, ¬ p b = true) : ((before ++ a :: after).filter p).getLast? = some a := by
  have rest : after.filter p = [] := List.filter_eq_nil_iff.mpr last
  rw [List.filter_append, List.filter_cons_of_pos found, rest, List.getLast?_concat]

/-- Notifications are switched on at a handle of the read characteristic exactly when the
properties of the write characteristic happen to be one. -/
theorem notifies_own_range_iff (s : Tool) {before after : List GattChar} {r w : GattChar}
    (read : isAnkiReadChar r = true) (last : ∀ chars ∈ after, ¬ isAnkiReadChar chars = true)
    (write : ((before ++ r :: after).filter isAnkiWriteChar).getLast? = some w) :
    (∀ handle ∈ notified (discoverCharCb s (before ++ r :: after) 0).2, r.Owns after handle) ↔
      (0 < r.handle ∧ 0 < w.handle → r.Owns after w.properties.toUInt16) := by
  rw [discovery_notifies s (last_of_kind read last) write]
  split
  · rename_i both
    rw [List.forall_mem_singleton, forall_prop_of_true both]
  · rename_i either
    exact ⟨fun _ both => absurd both either, fun _ => List.forall_mem_nil _⟩

theorem notifies_by_chance :
    let r : GattChar := ⟨ankiStrChrReadUuid, 0x000b, 0x12, 0x000c⟩
    let w : GattChar := ⟨ankiStrChrWriteUuid, 0x000e, 0x0d, 0x000f⟩
    ∀ handle ∈ notified (discoverCharCb (Tool.interactive none none 0) [r, w] 0).2,
      r.Owns [w] handle := by
  intro r w
  have last : ∀ chars ∈ [w], ¬ isAnkiReadChar chars = true := by decide +kernel
  refine (@notifies_own_range_iff (Tool.interactive none none 0) [] [w] r w (by decide +kernel) last
    (by decide +kernel)).mpr ?_
  decide

/-- The write characteristic takes writes with and without a response: 01 00 is written to the
value of the read characteristic. -/
theorem notifies_wrong_handle :
    let r : GattChar := ⟨ankiStrChrReadUuid, 0x000b, 0x12, 0x000c⟩
    let w : GattChar := ⟨ankiStrChrWriteUuid, 0x000e, 0x0c, 0x000f⟩
    0x000c ∈ notified (discoverCharCb (Tool.interactive none none 0) [r, w] 0).2 ∧
      ¬ r.Owns [w] 0x000c := by
  decide +kernel

end AnkiDrive
