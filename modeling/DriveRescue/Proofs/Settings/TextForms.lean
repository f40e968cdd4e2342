import DriveRescue.Proofs.Settings.Fields
import DriveRescue.Proofs.Settings.Numbers
import DriveRescue.Report.Record

/-! The text forms of options. A word stands for the same in a record of data as in a setting, and
options that are written out, as a record or as settings, are read back. -/
namespace DriveRescue

namespace CopyField

/-- Refusals name the option whose text is refused. -/
theorem exists_reason {field : CopyField} {text : String} {e : Error}
    (h : field.parse text = .error e) : ∃ reason, e = .invalidOption field.name reason := by
  cases field with
  | api =>
    simp only [parse, Api.ofWord] at h
    split at h
    · cases h
    · cases h
    · exact ⟨_, (Except.error.inj h).symm⟩
  | strategy =>
    simp only [parse, StrategyKind.ofWord] at h
    split at h
    · cases h
    · exact ⟨_, (Except.error.inj h).symm⟩
  | useJournal =>
    simp only [parse, Settings.yesNo] at h
    split at h <;> first | exact ⟨_, (Except.error.inj h).symm⟩ | cases h
  | skipBlocks | startLba =>
    simp only [parse, Settings.number] at h
    split at h
    · cases h
    · exact ⟨_, (Except.error.inj h).symm⟩
  | destination | journalFile => cases h

/-- The text of a value, if it has one: a journal that is not named has none. -/
def render : (field : CopyField) → field.Value → Option String
  | api, a => some (Api.name a)
  | strategy, k => some (StrategyKind.name k)
  | destination, path => some path
  | useJournal, b => some (bif b then "yes" else "no")
  | skipBlocks, n | startLba, n => some (Nat.repr n)
  | journalFile, path => path

def datum : (field : CopyField) → field.Value → Datum
  | api, a => .text a.name
  | strategy, k => .text k.name
  | destination, path => .text path
  | useJournal, b => .boolean b
  | skipBlocks, n => .count n
  | startLba, n => .count n
  | journalFile, path => (path.map Datum.text).getD .null

end CopyField

theorem CopyField.mem_all (field : CopyField) : field ∈ all := by cases field <;> decide

theorem Api.ofWord_name (a : Api) : ofWord a.name = .ok a := by cases a <;> decide +kernel

theorem StrategyKind.ofWord_name (k : StrategyKind) : ofWord k.name = .ok k := by
  cases k <;> decide +kernel

theorem Settings.yesNo_of_bool (name : String) (b : Bool) :
    yesNo name (bif b then "yes" else "no") = .ok b := by
  have hyes : Text.lower (Text.trim "yes") = "yes" := by decide +kernel
  have hno : Text.lower (Text.trim "no") = "no" := by decide +kernel
  cases b with
  | true => simp only [yesNo, cond_true, hyes]
  | false => simp only [yesNo, cond_false, hno]

namespace CopyOptions

structure OfWords (o : CopyOptions) : Prop where
  skipBlocks : o.skipBlocks < Text.wordBound
  startLba : o.startLba < Text.wordBound

def toSettings (o : CopyOptions) : List (String × String) :=
  CopyField.all.filterMap fun field => (field.render (o.get field)).map (field.name, ·)

theorem toDatum_eq (o : CopyOptions) :
    o.toDatum = .table (CopyField.all.map fun field => (field.name, field.datum (o.get field))) :=
  rfl

variable {o : CopyOptions}

theorem parse_render (h : o.OfWords) {field : CopyField} {text : String}
    (hrender : field.render (o.get field) = some text) : field.parse text = .ok (o.get field) := by
  cases field with
  | api =>
    obtain rfl := Option.some.inj hrender
    exact Api.ofWord_name o.api
  | strategy =>
    obtain rfl := Option.some.inj hrender
    exact StrategyKind.ofWord_name o.strategy
  | destination =>
    obtain rfl := Option.some.inj hrender
    rfl
  | useJournal =>
    obtain rfl := Option.some.inj hrender
    exact Settings.yesNo_of_bool _ o.useJournal
  | skipBlocks =>
    simp only [CopyField.render, get, Option.some.injEq] at hrender
    subst hrender
    simp only [CopyField.parse, get]
    exact Settings.number_repr h.skipBlocks _
  | startLba =>
    simp only [CopyField.render, get, Option.some.injEq] at hrender
    subst hrender
    simp only [CopyField.parse, get]
    exact Settings.number_repr h.startLba _
  | journalFile =>
    exact congrArg Except.ok hrender.symm

theorem readNumber_count {n : Nat} (h : n < Text.wordBound) :
    CopyField.readNumber (Reading.exact.number (.count n)) = .ok n := by
  have hnumber :
      Reading.exact.number (.count n) = if n < Text.wordBound then some n else none := rfl
  rw [hnumber, if_pos h]
  rfl

theorem read_datum (h : o.OfWords) (field : CopyField) :
    field.read .exact (field.datum (o.get field)) = .ok (o.get field) := by
  cases field with
  | api =>
    show (Api.ofWord o.api.name).mapError DatumFault.invalid = _
    rw [Api.ofWord_name]
    rfl
  | strategy =>
    show (StrategyKind.ofWord o.strategy.name).mapError DatumFault.invalid = _
    rw [StrategyKind.ofWord_name]
    rfl
  | destination | useJournal => rfl
  | skipBlocks => exact readNumber_count h.skipBlocks
  | startLba => exact readNumber_count h.startLba
  | journalFile =>
    simp only [CopyField.datum, get]
    cases o.journalFile <;> rfl

/-- A word in a field of a record stands for what it stands for in a setting. -/
theorem takeDatum_text {field : CopyField} (hfield : field ∈ [.api, .strategy, .useJournal])
    (o : CopyOptions) (text : String) :
    takeDatum .exact o (field.name, .text text) = (o.set field.name text).mapError .invalid := by
  have hread : field.read .exact (.text text) = (field.parse text).mapError .invalid := by
    simp only [List.mem_cons, List.not_mem_nil, or_false] at hfield
    rcases hfield with rfl | rfl | rfl <;> rfl
  have hset : o.set field.name text = (field.parse text).map (o.put field) :=
    setsByName_setPair.named o field text
  rw [(setsByName_takeDatum .exact).named, hread, hset]
  cases field.parse text <;> rfl

theorem ofDatum_of_perm (h : o.OfWords) {fields : List (String × Datum)}
    (hperm : fields.Perm o.toDatum.fields) : ofDatum .exact (.table fields) = .ok o := by
  rw [toDatum_eq] at hperm
  have hnames : (fields.map Prod.fst).Nodup := by
    rw [(hperm.map Prod.fst).nodup_iff]
    show CopyField.names.Nodup
    decide
  rw [ofDatum_table (hnames.filter _)]
  apply (setsByName_takeDatum .exact).foldlM_eq_ok
  · intro p hp
    obtain ⟨field, -, rfl⟩ := List.mem_map.mp (hperm.mem_iff.mp hp)
    exact ⟨field, rfl, read_datum h field⟩
  · intro field hnone
    have hmem : (field.name, field.datum (o.get field)) ∈ fields :=
      hperm.mem_iff.mpr (List.mem_map_of_mem field.mem_all)
    exact absurd rfl (lastValue?_eq_none_iff.mp hnone _ hmem)

theorem ofSettings_of_perm (h : o.OfWords) {settings : List (String × String)}
    (hperm : settings.Perm o.toSettings) : ofSettings settings = .ok o := by
  have hmem {p : String × String} : p ∈ settings ↔
      ∃ field : CopyField, ∃ text, field.render (o.get field) = some text ∧
        (field.name, text) = p := by
    simp only [hperm.mem_iff, toSettings, List.mem_filterMap, CopyField.mem_all, true_and,
      Option.map_eq_some_iff]
  rw [ofSettings_eq]
  apply setsByName_setPair.foldlM_eq_ok
  · intro p hp
    obtain ⟨field, text, hrender, rfl⟩ := hmem.mp hp
    exact ⟨field, rfl, parse_render h hrender⟩
  · intro field hnone
    have hrender : field.render (o.get field) = none := by
      rw [Option.eq_none_iff_forall_ne_some]
      intro text hrender
      exact lastValue?_eq_none_iff.mp hnone _ (hmem.mpr ⟨field, text, hrender, rfl⟩) rfl
    -- Only a journal that is not named has no text.
    cases field with
    | journalFile => exact hrender.symm
    | _ => cases hrender

theorem nodup_knownNames_insert {known : List String} {before after : List (String × Datum)}
    {name : String} {d : Datum} (hother : ∀ p ∈ before ++ after, name ≠ p.1)
    (h : (knownNames known (before ++ after)).Nodup) :
    (knownNames known (before ++ (name, d) :: after)).Nodup := by
  have hperm : (knownNames known (before ++ (name, d) :: after)).Perm
      (knownNames known ((name, d) :: (before ++ after))) :=
    (List.perm_middle.map Prod.fst).filter _
  rw [hperm.nodup_iff, knownNames_cons]
  split
  · refine List.nodup_cons.mpr ⟨fun hmem => ?_, h⟩
    obtain ⟨p, hp, rfl⟩ := List.mem_map.mp (List.mem_of_mem_filter hmem)
    exact hother p hp rfl
  · exact h

/-- A word for the way to the source, the strategy or the journal's use stands for the same in an
object as in a setting, among whatever other fields, and where it stands for nothing both refuse it
for the same reason. Options that are written out as an object, its fields in any order, or as
settings are read back. -/
theorem text_forms_agree :
    (∀ field ∈ [CopyField.api, .strategy, .useJournal],
      ∀ (text : String) (before after : List (String × Datum)) (o : CopyOptions),
        (∀ p ∈ before ++ after, field.name ≠ p.1) →
        ofDatum .exact (.table (before ++ after)) = .ok o →
        ofDatum .exact (.table (before ++ (field.name, .text text) :: after)) =
          (o.set field.name text).mapError .invalid ∧
        ∀ e, o.set field.name text = .error e → ∃ reason, e = .invalidOption field.name reason) ∧
    ∀ o : CopyOptions, o.OfWords →
      ofDatum .exact o.toDatum = .ok o ∧
      (∀ fields, fields.Perm o.toDatum.fields → ofDatum .exact (.table fields) = .ok o) ∧
      ∀ settings, settings.Perm o.toSettings → ofSettings settings = .ok o := by
  refine ⟨fun field hfield text before after o hother hrest => ⟨?_, fun e hset => ?_⟩, fun o h =>
    ⟨?_, fun fields => ofDatum_of_perm h, fun settings => ofSettings_of_perm h⟩⟩
  · have hbehind : ∀ p ∈ after, field.name ≠ p.1 := fun p hp =>
      hother p (List.mem_append_right _ hp)
    have hnodup := nodup_knownNames hrest
    rw [ofDatum_table hnodup] at hrest
    rw [ofDatum_table (nodup_knownNames_insert hother hnodup),
      (setsByName_takeDatum .exact).foldlM_insert hbehind hrest]
    exact takeDatum_text hfield o text
  · have hassign : o.set field.name text = (field.parse text).map (o.put field) :=
      setsByName_setPair.named o field text
    rw [hassign] at hset
    cases hparse : field.parse text with
    | ok v => simp [hparse, Except.map] at hset
    | error e' =>
      rw [hparse] at hset
      obtain rfl := Except.error.inj hset
      exact CopyField.exists_reason hparse
  · exact ofDatum_of_perm h (.refl _)

/-- Words in other letters and among blanks, a word that is none, and options with the greatest
number and an empty path. -/
theorem text_forms_agree_at_edges :
    let o : CopyOptions :=
      ⟨.ata, .skipFailForward, " a.img ", false, Text.wordBound - 1, 7, some ""⟩
    let started : CopyOptions := { default with startLba := 7 }
    let maybe : Error := .invalidOption "use_journal" (.notYesNo "maybe")
    ofDatum .exact (.table [("start_lba", .integer 7), ("api", .text "\tATA ")]) =
        .ok { started with api := .ata } ∧
      started.set "use_journal" "maybe" = .error maybe ∧
      ofDatum .exact (.table [("start_lba", .integer 7), ("use_journal", .text "maybe")]) =
        .error (.invalid maybe) ∧
      o.OfWords ∧ ofDatum .exact o.toDatum = .ok o ∧ ofSettings o.toSettings.reverse = .ok o := by
  intro o started maybe
  have hwords : o.OfWords := ⟨by decide, by decide⟩
  have hrest : ofDatum .exact (.table ([("start_lba", .integer 7)] ++ [])) = .ok started := by
    decide +kernel
  have hset : started.set "api" "\tATA " = .ok { started with api := .ata } := by decide +kernel
  have hrefuse : started.set "use_journal" "maybe" = .error maybe := by decide +kernel
  obtain ⟨hwritten, hback⟩ := text_forms_agree
  have hapi := (hwritten .api (by decide) "\tATA " _ _ started (by decide) hrest).1
  have hmaybe := (hwritten .useJournal (by decide) "maybe" _ _ started (by decide) hrest).1
  obtain ⟨hdatum, -, hsettings⟩ := hback o hwords
  refine ⟨hapi.trans ?_, hrefuse, hmaybe.trans ?_, hwords, hdatum, ?_⟩
  · exact congrArg (·.mapError DatumFault.invalid) hset
  · exact congrArg (·.mapError DatumFault.invalid) hrefuse
  · exact hsettings _ (List.reverse_perm _)

end CopyOptions

end DriveRescue
