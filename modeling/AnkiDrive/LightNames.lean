import Mathlib.Data.List.ReduceOption
import AnkiDrive.VehicleCmd

/-! The names of channels and effects. The search for a name goes one entry too far, so that
it ends well for names alone, and compares as many characters as a byte can count. -/
namespace AnkiDrive

def lightCount : UInt8 := 6

def effectCount : UInt8 := 5

section Search

variable {len : CString → CString → Nat} {name : CString}

/-- The search passes the entries that do not compare equal, and stops at the first that does.
If there is none, it gets to the closing `NULL`. -/
theorem findName_closed (entries : List CString) (i : UInt8) :
    (findName len name i (entries.map some ++ [none]) = none ∧
        ∀ e ∈ entries, strncmp name e (len name e) ≠ 0) ∨
      ∃ before e after, entries = before ++ e :: after ∧ strncmp name e (len name e) = 0 ∧
        findName len name i (entries.map some ++ [none]) = some (i + UInt8.ofNat before.length) := by
  induction entries generalizing i with
  | nil => exact Or.inl ⟨rfl, by simp⟩
  | cons e entries ih =>
    simp only [List.map_cons, List.cons_append, findName]
    split
    · rename_i equal
      exact Or.inr ⟨[], e, entries, rfl, equal, by simp⟩
    · rename_i differ
      rcases ih (i + 1) with ⟨closed, others⟩ | ⟨before, found, after, rfl, equal, index⟩
      · exact Or.inl ⟨closed, List.forall_mem_cons.mpr ⟨differ, others⟩⟩
      · refine Or.inr ⟨e :: before, found, after, rfl, equal, ?_⟩
        rw [index, List.length_cons, UInt8.ofNat_add]
        grind

theorem findName_none {entries : List CString} :
    findName len name 0 (entries.map some ++ [none]) = none ↔
      ∀ e ∈ entries, strncmp name e (len name e) ≠ 0 := by
  rcases @findName_closed len name entries 0 with ⟨closed, others⟩ | ⟨before, e, after, rfl, equal, index⟩
  · exact iff_of_true closed others
  · rw [index]
    refine iff_of_false (Option.some_ne_none _) fun others => ?_
    exact others e (by simp) equal

theorem findName_some {entries : List CString} {i : UInt8} (short : entries.length < 256)
    (found : findName len name 0 (entries.map some ++ [none]) = some i) :
    ∃ e, entries[i.toNat]? = some e ∧ strncmp name e (len name e) = 0 := by
  rcases @findName_closed len name entries 0 with ⟨closed, _⟩ | ⟨before, e, after, rfl, equal, index⟩
  · cases closed.symm.trans found
  · rw [index] at found
    cases found
    have inside : before.length < 256 := by
      simp only [List.length_append] at short
      omega
    have place : (0 + UInt8.ofNat before.length).toNat = before.length := by
      rw [UInt8.zero_add, UInt8.toNat_ofNat_of_lt' inside]
    refine ⟨e, ?_, equal⟩
    rw [place]
    simp

end Search

theorem channel_short : ∀ e ∈ channelsByName.reduceOption, strlen e ≤ 6 := by decide +kernel

theorem effect_short : ∀ e ∈ effectsByName.reduceOption, strlen e ≤ 6 := by decide +kernel

theorem cstring_eq {s t : CString} (same : s.chars = t.chars) : s = t := by
  cases s
  cases same
  rfl

theorem strncmp_whole {s t : CString} {n : Nat} (left : strlen s ≤ n) (right : strlen t ≤ n) :
    strncmp s t n = 0 ↔ s = t := by
  rw [strncmp_eq_zero, List.take_of_length_le left, List.take_of_length_le right]
  exact ⟨cstring_eq, fun same => same ▸ rfl⟩

theorem strncmp_past_end {s t : CString} {n : Nat} (past : strlen t < n) :
    strncmp s t n = 0 ↔ s = t := by
  constructor
  · intro equal
    have fronts := strncmp_eq_zero.mp equal
    rw [List.take_of_length_le (Nat.le_of_lt past)] at fronts
    have size := congrArg List.length fronts
    rw [List.length_take] at size
    have short : strlen s ≤ n := by
      simp only [strlen] at past ⊢
      omega
    exact (strncmp_whole short (Nat.le_of_lt past)).mp equal
  · rintro rfl
    exact strncmp_eq_zero.mpr rfl

theorem effect_equal {s e : CString} (known : e ∈ effectsByName.reduceOption) :
    strncmp s e pointerSize = 0 ↔ s = e :=
  strncmp_past_end (Nat.lt_of_le_of_lt (effect_short e known) (by decide))

/-- The longer length is counted in a byte. -/
theorem channel_equal {s e : CString} (known : e ∈ channelsByName.reduceOption) :
    strncmp s e (UInt8.ofNat (max (strlen s) (strlen e))).toNat = 0 ↔
      if strlen s < 256 then s = e else s.chars.take (strlen s % 256) <+: e.chars := by
  have short := channel_short e known
  split
  · rename_i counted
    have length : (UInt8.ofNat (max (strlen s) (strlen e))).toNat = max (strlen s) (strlen e) :=
      UInt8.toNat_ofNat_of_lt' (by simp only [UInt8.size]; omega)
    rw [length]
    exact strncmp_whole (Nat.le_max_left ..) (Nat.le_max_right ..)
  · rename_i wrapped
    have longer : max (strlen s) (strlen e) = strlen s := by omega
    have front : (s.chars.take (strlen s % 256)).length = strlen s % 256 := by
      rw [List.length_take]
      exact Nat.min_eq_left (Nat.mod_le _ _)
    rw [longer, UInt8.toNat_ofNat', strncmp_eq_zero, List.prefix_iff_eq_take, front]

def channelLength (name entry : CString) : Nat :=
  (UInt8.ofNat (max (strlen name) (strlen entry))).toNat

theorem getChannelByName_eq (s : CString) : getChannelByName (some s) =
    findName channelLength s 0 (channelsByName.reduceOption.map some ++ [none]) := rfl

theorem getEffectByName_eq (s : CString) : getEffectByName (some s) =
    findName (fun _ _ => pointerSize) s 0 (effectsByName.reduceOption.map some ++ [none]) := rfl

theorem mem_names {table : List (Option CString)} {e : CString} :
    e ∈ table.reduceOption ↔ some e ∈ table := List.reduceOption_mem_iff

theorem table_entry {entries : List CString} {k : Nat} {e : CString} (place : entries[k]? = some e) :
    (entries.map some ++ [none])[k]? = some (some e) := by
  have inside : k < (entries.map some).length := by
    rw [List.length_map]
    exact (List.getElem?_eq_some_iff.mp place).1
  rw [List.getElem?_append_left inside, List.getElem?_map, place]
  rfl

theorem channel_found {s : CString} {i : UInt8} (found : getChannelByName (some s) = some i) :
    ∃ e, channelsByName.reduceOption[i.toNat]? = some e ∧ strncmp s e (channelLength s e) = 0 :=
  findName_some (by decide) found

theorem effect_found {s : CString} {i : UInt8} (found : getEffectByName (some s) = some i) :
    effectsByName.reduceOption[i.toNat]? = some s := by
  obtain ⟨e, place, equal⟩ :=
    @findName_some (fun _ _ => pointerSize) s effectsByName.reduceOption i (by decide) found
  have same := (effect_equal (List.mem_of_getElem? place)).mp equal
  rw [same]
  exact place

theorem channel_not_refused (s : CString) : getChannelByName (some s) ≠ some channelInvalid := by
  intro refused
  obtain ⟨e, place, _⟩ := channel_found refused
  have outside : channelsByName.reduceOption[channelInvalid.toNat]? = none := by decide +kernel
  cases outside.symm.trans place

theorem effect_not_refused (s : CString) : getEffectByName (some s) ≠ some effectInvalid := by
  intro refused
  have outside : effectsByName.reduceOption[effectInvalid.toNat]? = none := by decide +kernel
  cases outside.symm.trans (effect_found refused)

theorem effect_known {e : CString} :
    getEffectByName (some e) ≠ none ↔ some e ∈ effectsByName := by
  constructor
  · intro found
    by_contra unknown
    refine found ?_
    rw [getEffectByName_eq, findName_none]
    intro d known equal
    obtain rfl := (effect_equal known).mp equal
    exact unknown (mem_names.mp known)
  · intro known never
    rw [getEffectByName_eq, findName_none] at never
    exact never e (mem_names.mpr known) ((effect_equal (mem_names.mpr known)).mpr rfl)

/-- A name that is in neither table is refused by neither function. The search for an effect
goes on to the closing `NULL`, and so does that for a channel, unless one is taken for it. -/
theorem unknown_names_not_refused (s : CString) :
    (some s ∉ channelsByName → getChannelByName (some s) ≠ some channelInvalid) ∧
      (some s ∉ effectsByName → getEffectByName (some s) = none) := by
  refine ⟨fun _ => channel_not_refused s, fun unknown => ?_⟩
  by_contra found
  exact unknown (effect_known.mp found)

theorem gray_not_refused :
    getChannelByName (some (CString.literal "GRAY")) ≠ some channelInvalid ∧
      getEffectByName (some (CString.literal "GRAY")) = none :=
  ⟨(unknown_names_not_refused (CString.literal "GRAY")).1 (by decide +kernel),
    (unknown_names_not_refused (CString.literal "GRAY")).2 (by decide +kernel)⟩

/-- For a name that is in no table the closing `NULL` is used as a string. -/
theorem purple_reaches_null :
    some (CString.literal "PURPLE") ∉ channelsByName ∧
      getChannelByName (some (CString.literal "PURPLE")) = none ∧
      some (CString.literal "PURPLE") ∉ effectsByName ∧
      getEffectByName (some (CString.literal "PURPLE")) = none := by
  decide +kernel

theorem effect_exact {s : CString} {i : UInt8} (found : getEffectByName (some s) = some i) :
    effectsByName[i.toNat]? = some (some s) :=
  table_entry (effect_found found)

theorem channel_exact {s : CString} {i : UInt8} (found : getChannelByName (some s) = some i)
    (spelled : strlen s < 256 ∨
      ∀ e, some e ∈ channelsByName → ¬ s.chars.take (strlen s % 256) <+: e.chars) :
    channelsByName[i.toNat]? = some (some s) := by
  obtain ⟨e, place, equal⟩ := channel_found found
  have known := List.mem_of_getElem? place
  have compared := (channel_equal known).mp equal
  split at compared
  · rw [compared]
    exact table_entry place
  · rename_i long
    rcases spelled with short | none
    · exact absurd short long
    · exact absurd compared (none e (mem_names.mp known))

/-- A name that is too long to be counted is taken for the first channel that starts with the
front that is compared. -/
theorem channel_mistaken {s e : CString} (long : ¬ strlen s < 256)
    (known : some e ∈ channelsByName) (front : s.chars.take (strlen s % 256) <+: e.chars) :
    ∃ i < lightCount, getChannelByName (some s) = some i ∧
      channelsByName[i.toNat]? ≠ some (some s) := by
  have equal : strncmp s e (channelLength s e) = 0 := by
    refine (channel_equal (mem_names.mpr known)).mpr ?_
    rw [if_neg long]
    exact front
  cases found : getChannelByName (some s) with
  | none =>
    rw [getChannelByName_eq, findName_none] at found
    exact absurd equal (found e (mem_names.mpr known))
  | some i =>
    obtain ⟨d, place, _⟩ := channel_found found
    refine ⟨i, ?_, rfl, fun exact => ?_⟩
    · have inside := (List.getElem?_eq_some_iff.mp place).1
      have count : channelsByName.reduceOption.length = lightCount.toNat := rfl
      exact UInt8.lt_iff_toNat_lt.mpr (count ▸ inside)
    · have same := (table_entry place).symm.trans exact
      cases same
      have short := channel_short s (List.mem_of_getElem? place)
      omega

/-- A name is taken for an effect only when it is spelled like it, and for a channel unless it
is so long that the byte its length is counted in wraps, to the length of a front of it that
a channel starts with. -/
theorem names_exact_iff (s : CString) :
    ((∀ i < lightCount, getChannelByName (some s) = some i →
        channelsByName[i.toNat]? = some (some s)) ∧
      ∀ i < effectCount, getEffectByName (some s) = some i →
        effectsByName[i.toNat]? = some (some s)) ↔
    strlen s < 256 ∨ ∀ e, some e ∈ channelsByName → ¬ s.chars.take (strlen s % 256) <+: e.chars := by
  constructor
  · rintro ⟨channels, _⟩
    by_contra spelled
    obtain ⟨long, others⟩ := not_or.mp spelled
    refine others fun e known front => ?_
    obtain ⟨i, inside, found, other⟩ := channel_mistaken long known front
    exact other (channels i inside found)
  · intro spelled
    exact ⟨fun i _ found => channel_exact found spelled, fun i _ found => effect_exact found⟩

/-- A name of 256 characters is compared for none of them. -/
theorem long_name_is_red :
    let s : CString := ⟨List.replicate 256 0x58, by decide +kernel⟩
    getChannelByName (some s) = some lightRed ∧
      channelsByName[lightRed.toNat]? = some (some (CString.literal "RED")) ∧
      s ≠ CString.literal "RED" := by
  decide +kernel

end AnkiDrive
