import DriveRescue.Proofs.Settings.Fields

/-! Settings in a list. Each field goes by the last setting with its name, whatever else stands in
the list, and a setting that is refused changes nothing. -/
namespace DriveRescue

/-- Of two neighbours with different names neither is the last with the other's. -/
theorem lastValue?_swap {α : Type} {p q : String × α} (hne : p.1 ≠ q.1) (name : String)
    (before after : List (String × α)) :
    lastValue? name (before ++ q :: p :: after) = lastValue? name (before ++ p :: q :: after) := by
  simp only [lastValue?_append, lastValue?_cons]
  by_cases hp : name = p.1
  · have hq : name ≠ q.1 := fun hq => hne (hp.symm.trans hq)
    rw [if_neg hq, Option.or_none, Option.or_none]
  · rw [if_neg hp, Option.or_none, Option.or_none]

namespace CopyOptions

/-- Sets an option in place. The text is read before anything is changed. -/
def setInPlace (name text : String) : EStateM Error CopyOptions Unit :=
  match CopyField.ofName? name with
  | some field => do
    let v ← ofExcept (field.parse text)
    modify fun o => o.put field v
  | none => throw (.invalidOption name .unknownOption)

variable {o o' : CopyOptions} {name text : String}

theorem setInPlace_eq (o : CopyOptions) (name text : String) :
    (setInPlace name text).run o =
      match o.set name text with
      | .ok o' => .ok () o'
      | .error e => .error e o := by
  rw [setInPlace, CopyOptions.set]
  cases CopyField.ofName? name with
  | none => rfl
  | some field =>
    dsimp only
    rw [assign_eq]
    cases field.parse text <;> rfl

/-- A setting that is accepted changes the field of its name and no other. -/
theorem exists_field_of_set (h : o.set name text = .ok o') :
    ∃ field : CopyField, field.name = name ∧ field.parse text = .ok (o'.get field) ∧
      ∀ other ≠ field, o'.get other = o.get other := by
  have hstep : setPair o (name, text) = .ok o' := h
  cases hname : CopyField.ofName? name with
  | none => simp [CopyOptions.set, hname] at h
  | some field =>
    obtain rfl := CopyField.ofName?_eq_some_iff.mp hname
    refine ⟨field, rfl, setsByName_setPair.get_of_name hstep, fun other hne => ?_⟩
    exact setsByName_setPair.get_of_ne hstep fun heq => hne (CopyField.name_injective heq)

theorem ofSettings_swap {before after : List (String × String)} {p q : String × String}
    (hne : p.1 ≠ q.1) (h : ofSettings (before ++ p :: q :: after) = .ok o) :
    ofSettings (before ++ q :: p :: after) = .ok o := by
  have hall := setsByName_setPair.exists_foldlM_iff.mp ⟨o, h⟩
  have hswapped : ∀ s ∈ before ++ q :: p :: after, Accepts setPair s := fun s hs =>
    hall s (((List.Perm.swap p q after).append_left before).mem_iff.mp hs)
  obtain ⟨o', ho'⟩ := setsByName_setPair.exists_foldlM_iff (o := default).mpr hswapped
  have hsame := setsByName_setPair.holds_foldlM ho'
  simp only [lastValue?_swap hne] at hsame
  rw [ofSettings_eq, ho', hsame.eq (setsByName_setPair.holds_foldlM h)]

/-- Settings are accepted one by one, whatever the options, and all of them if each one is; else
they are refused for the first that is. Each field holds what the last setting with its name stands
for, so that neighbours with different names may change places. A setting that is refused leaves all
fields as they are, and one that is accepted leaves all but its own. -/
theorem settings_last_wins (settings : List (String × String)) :
    (∀ p, Accepts setPair p ∨ ∃ e, ∀ o, setPair o p = .error e) ∧
    ((∃ o, ofSettings settings = .ok o) ↔ ∀ p ∈ settings, Accepts setPair p) ∧
    (∀ e, ofSettings settings = .error e ↔ ∃ before p after, settings = before ++ p :: after ∧
      (∀ q ∈ before, Accepts setPair q) ∧ ∀ o, setPair o p = .error e) ∧
    (∀ o, ofSettings settings = .ok o →
      Holds CopyField.parse default (fun field => lastValue? field.name settings) o ∧
      ∀ before p q after, settings = before ++ p :: q :: after → p.1 ≠ q.1 →
        ofSettings (before ++ q :: p :: after) = .ok o) ∧
    ∀ (o : CopyOptions) name text,
      (∀ e, o.set name text = .error e → (setInPlace name text).run o = .error e o) ∧
      ∀ o', o.set name text = .ok o' → (setInPlace name text).run o = .ok () o' ∧
        ∃ field : CopyField, field.name = name ∧ field.parse text = .ok (o'.get field) ∧
          ∀ other ≠ field, o'.get other = o.get other := by
  have hsets := setsByName_setPair
  refine ⟨hsets.accepts_or_refuses, hsets.exists_foldlM_iff, fun e => hsets.foldlM_eq_error_iff,
    fun o hset => ⟨hsets.holds_foldlM hset, ?_⟩,
    fun o name text => ⟨fun e hset => ?_, fun o' hset => ?_⟩⟩
  · rintro before p q after rfl hne
    exact ofSettings_swap hne hset
  · rw [setInPlace_eq, hset]
  · exact ⟨by rw [setInPlace_eq, hset], exists_field_of_set hset⟩

/-- One name stands twice, and its first setting may go behind its neighbour. -/
theorem settings_last_wins_of_two :
    let settings :=
      [("api", "ATA"), ("skip_blocks", "7"), ("use_journal", "No"), ("skip_blocks", " +9 ")]
    let o : CopyOptions := { default with api := .ata, useJournal := false, skipBlocks := 9 }
    let many : Error := .invalidOption "skip_blocks" (.notNumber "many")
    ofSettings settings = .ok o ∧ lastValue? "skip_blocks" settings = some " +9 " ∧
      CopyField.skipBlocks.parse " +9 " = .ok (o.get .skipBlocks) ∧
      ofSettings [("api", "ATA"), ("use_journal", "No"), ("skip_blocks", "7"),
        ("skip_blocks", " +9 ")] = .ok o ∧
      o.set "skip_blocks" "many" = .error many ∧
      (setInPlace "skip_blocks" "many").run o = .error many o := by
  intro settings o many
  have hset : ofSettings settings = .ok o := by decide +kernel
  have hrefuse : o.set "skip_blocks" "many" = .error many := by decide +kernel
  obtain ⟨-, -, -, hfields, hplace⟩ := settings_last_wins settings
  obtain ⟨hholds, hswap⟩ := hfields o hset
  refine ⟨hset, by decide, hholds .skipBlocks, ?_, hrefuse, (hplace o _ _).1 many hrefuse⟩
  exact hswap [("api", "ATA")] ("skip_blocks", "7") ("use_journal", "No")
    [("skip_blocks", " +9 ")] rfl (by decide)

end CopyOptions

end DriveRescue
