import DriveRescue.Settings.Datum
import Mathlib.Data.List.Induction
import Mathlib.Data.List.Nodup

/-! The options field by field. A list of named values, be they texts or data, gives each field what
the last value with its name stands for, and is refused for the first value that stands for none. -/
namespace DriveRescue

namespace CopyField

def Value : CopyField → Type
  | api => Api
  | strategy => StrategyKind
  | destination => String
  | useJournal => Bool
  | skipBlocks | startLba => Nat
  | journalFile => Option String

def parse : (field : CopyField) → String → Except Error field.Value
  | api, text => Api.ofWord text
  | strategy, text => StrategyKind.ofWord text
  | destination, text => .ok text
  | useJournal, text => Settings.yesNo useJournal.name text
  | skipBlocks, text => Settings.number skipBlocks.name text
  | startLba, text => Settings.number startLba.name text
  | journalFile, text => .ok (some text)

def readText (field : CopyField) : Option String → Except DatumFault field.Value
  | some text => (field.parse text).mapError .invalid
  | none => .error .mismatch

def readNumber : Option Nat → Except DatumFault Nat
  | some n => .ok n
  | none => .error .mismatch

def read (r : Reading) : (field : CopyField) → Datum → Except DatumFault field.Value
  | api, d => readText api (r.text d)
  | strategy, d => readText strategy (r.text d)
  | destination, d => readText destination (r.path d)
  | useJournal, .boolean b => .ok b
  | useJournal, .text s => readText useJournal (some s)
  | useJournal, _ => .error .mismatch
  | skipBlocks, d => readNumber (r.number d)
  | startLba, d => readNumber (r.number d)
  | journalFile, .null => .ok none
  | journalFile, d => readText journalFile (r.path d)

theorem ofName?_eq_some_iff {name : String} {field : CopyField} :
    ofName? name = some field ↔ field.name = name := by
  constructor
  · intro h
    simpa using List.find?_some h
  · rintro rfl
    cases field <;> decide

theorem name_injective {f g : CopyField} (h : f.name = g.name) : f = g :=
  Option.some.inj ((ofName?_eq_some_iff.mpr rfl).symm.trans (ofName?_eq_some_iff.mpr h.symm))

end CopyField

namespace CopyOptions

def get (o : CopyOptions) : (field : CopyField) → field.Value
  | .api => o.api
  | .strategy => o.strategy
  | .destination => o.destination
  | .useJournal => o.useJournal
  | .skipBlocks => o.skipBlocks
  | .startLba => o.startLba
  | .journalFile => o.journalFile

def put (o : CopyOptions) : (field : CopyField) → field.Value → CopyOptions
  | .api, api => { o with api }
  | .strategy, strategy => { o with strategy }
  | .destination, destination => { o with destination }
  | .useJournal, useJournal => { o with useJournal }
  | .skipBlocks, skipBlocks => { o with skipBlocks }
  | .startLba, startLba => { o with startLba }
  | .journalFile, journalFile => { o with journalFile }

variable {o o' : CopyOptions}

@[simp] theorem get_put (o : CopyOptions) (field : CopyField) (v : field.Value) :
    (o.put field v).get field = v := by cases field <;> rfl

theorem get_put_of_ne {f g : CopyField} (h : g ≠ f) (o : CopyOptions) (v : f.Value) :
    (o.put f v).get g = o.get g := by
  cases f <;> cases g <;> first | rfl | exact absurd rfl h

theorem ext_get (h : ∀ field, o.get field = o'.get field) : o = o' := by
  cases o
  cases o'
  rw [mk.injEq]
  exact ⟨h .api, h .strategy, h .destination, h .useJournal, h .skipBlocks, h .startLba,
    h .journalFile⟩

theorem assign_eq (o : CopyOptions) (field : CopyField) (text : String) :
    o.assign field text = (field.parse text).map (o.put field) := by cases field <;> rfl

private theorem map_readText (o : CopyOptions) (field : CopyField) (text : String) :
    (field.readText (some text)).map (o.put field) = (o.assign field text).mapError .invalid := by
  rw [assign_eq, CopyField.readText]
  cases field.parse text <;> rfl

theorem assignDatum_eq (r : Reading) (o : CopyOptions) (field : CopyField) (d : Datum) :
    o.assignDatum r field d = (field.read r d).map (o.put field) := by
  cases field with
  | api | strategy =>
    rw [assignDatum, CopyField.read]
    cases r.text d with
    | none => rfl
    | some text =>
      rw [map_readText, expect_some, ← refuse_eq_mapError]
      rfl
  | destination =>
    rw [assignDatum, CopyField.read]
    cases r.path d <;> rfl
  | useJournal =>
    cases d with
    | text s =>
      rw [CopyField.read, map_readText, ← refuse_eq_mapError]
      rfl
    | _ => rfl
  | skipBlocks | startLba =>
    rw [assignDatum, CopyField.read]
    cases r.number d <;> rfl
  | journalFile =>
    cases d with
    | null => rfl
    | _ =>
      simp only [assignDatum, CopyField.read]
      cases r.path _ <;> rfl

end CopyOptions

/-- The last value that a list of named values gives to a name. -/
def lastValue? {α : Type} (name : String) (pairs : List (String × α)) : Option α :=
  pairs.reverse.lookup name

section LastValue

variable {α : Type} {name : String} {pairs : List (String × α)}

theorem lookup_cons_eq (name : String) (p : String × α) (pairs : List (String × α)) :
    (p :: pairs).lookup name = if name = p.1 then some p.2 else pairs.lookup name := by
  rw [List.lookup_cons]
  by_cases h : name = p.1
  · rw [if_pos h, beq_iff_eq.mpr h]
  · rw [if_neg h, beq_eq_false_iff_ne.mpr h]

@[simp] theorem lastValue?_nil : lastValue? name ([] : List (String × α)) = none := rfl

theorem lastValue?_concat (name : String) (pairs : List (String × α)) (p : String × α) :
    lastValue? name (pairs ++ [p]) = if name = p.1 then some p.2 else lastValue? name pairs := by
  rw [lastValue?, List.reverse_concat, lookup_cons_eq]
  rfl

theorem lastValue?_append (name : String) (l l' : List (String × α)) :
    lastValue? name (l ++ l') = (lastValue? name l').or (lastValue? name l) := by
  rw [lastValue?, List.reverse_append, List.lookup_append]
  rfl

theorem lastValue?_cons (name : String) (p : String × α) (pairs : List (String × α)) :
    lastValue? name (p :: pairs) =
      (lastValue? name pairs).or (if name = p.1 then some p.2 else none) := by
  rw [← List.singleton_append, lastValue?_append, ← List.nil_append [p], lastValue?_concat,
    lastValue?_nil]

@[simp] theorem lastValue?_eq_none_iff :
    lastValue? name pairs = none ↔ ∀ p ∈ pairs, name ≠ p.1 := by
  simp [lastValue?, List.lookup_eq_none_iff]

theorem mem_of_lastValue? {a : α} (h : lastValue? name pairs = some a) : (name, a) ∈ pairs := by
  induction pairs using List.reverseRecOn with
  | nil => simp at h
  | append_singleton pairs p ih =>
    rw [lastValue?_concat] at h
    split at h
    · next hname =>
      obtain rfl := Option.some.inj h
      simp [hname]
    · exact List.mem_append_left _ (ih h)

/-- Where no name stands twice, the last value with a name is the only one. -/
theorem lastValue?_eq_some_iff (hnodup : (pairs.map Prod.fst).Nodup) {a : α} :
    lastValue? name pairs = some a ↔ (name, a) ∈ pairs := by
  refine ⟨mem_of_lastValue?, fun hmem => ?_⟩
  induction pairs using List.reverseRecOn with
  | nil => simp at hmem
  | append_singleton pairs p ih =>
    rw [List.map_append, List.nodup_append] at hnodup
    rw [lastValue?_concat]
    rcases List.mem_append.mp hmem with hfirst | hlast
    · have hne : name ≠ p.1 := hnodup.2.2 name (List.mem_map_of_mem hfirst) p.1 (by simp)
      rw [if_neg hne]
      exact ih hnodup.1 hfirst
    · obtain rfl := List.mem_singleton.mp hlast
      rw [if_pos rfl]

theorem isSome_lastValue? : (lastValue? name pairs).isSome ↔ ∃ a, (name, a) ∈ pairs := by
  constructor
  · intro h
    obtain ⟨a, ha⟩ := Option.isSome_iff_exists.mp h
    exact ⟨a, mem_of_lastValue? ha⟩
  · rintro ⟨a, ha⟩
    rw [Option.isSome_iff_ne_none]
    exact fun hnone => lastValue?_eq_none_iff.mp hnone _ ha rfl

theorem lookup_eq_lastValue? (hnodup : (pairs.map Prod.fst).Nodup) (name : String) :
    pairs.lookup name = lastValue? name pairs := by
  have hreverse : (pairs.reverse.map Prod.fst).Nodup := by
    rw [List.map_reverse]
    exact List.nodup_reverse.mpr hnodup
  have hlookup : pairs.lookup name = lastValue? name pairs.reverse := by
    rw [lastValue?, List.reverse_reverse]
  ext a
  rw [hlookup, lastValue?_eq_some_iff hreverse, lastValue?_eq_some_iff hnodup, List.mem_reverse]

end LastValue

namespace CopyOptions

/-- A way to change options by a named value: a field's name gives the field what the value stands
for, and any other name changes nothing or is refused. -/
structure SetsByName {α ε : Type} (step : CopyOptions → String × α → Except ε CopyOptions)
    (decode : (field : CopyField) → α → Except ε field.Value) : Prop where
  named (o : CopyOptions) (field : CopyField) (a : α) :
    step o (field.name, a) = (decode field a).map (o.put field)
  unnamed {name : String} (h : CopyField.ofName? name = none) (a : α) :
    (∀ o, step o (name, a) = .ok o) ∨ ∃ e, ∀ o, step o (name, a) = .error e

/-- Whatever the options are, they can be changed so. -/
def Accepts {β ε : Type} (step : CopyOptions → β → Except ε CopyOptions) (b : β) : Prop :=
  ∀ o, ∃ o', step o b = .ok o'

/-- The options hold what the values given to the fields stand for, and where none is given they
hold what they held. -/
def Holds {α ε : Type} (decode : (field : CopyField) → α → Except ε field.Value)
    (before : CopyOptions) (given : CopyField → Option α) (o : CopyOptions) : Prop :=
  ∀ field, match given field with
    | some a => decode field a = .ok (o.get field)
    | none => o.get field = before.get field

section Holds

variable {α ε : Type} {decode : (field : CopyField) → α → Except ε field.Value}
  {given given' : CopyField → Option α} {before o o' : CopyOptions}

theorem Holds.get_of_some (ho : Holds decode before given o) (field : CopyField) {a : α}
    (h : given field = some a) : decode field a = .ok (o.get field) := by
  have hfield := ho field
  rwa [h] at hfield

theorem Holds.get_of_none (ho : Holds decode before given o) (field : CopyField)
    (h : given field = none) : o.get field = before.get field := by
  have hfield := ho field
  rwa [h] at hfield

/-- What is given to all fields leaves no choice of options. -/
theorem Holds.eq (ho : Holds decode before given o) (ho' : Holds decode before given o') :
    o = o' := by
  refine ext_get fun field => ?_
  cases h : given field with
  | none => exact (ho.get_of_none field h).trans (ho'.get_of_none field h).symm
  | some a => exact Except.ok.inj ((ho.get_of_some field h).symm.trans (ho'.get_of_some field h))

/-- Values that stand for the same are as good. -/
theorem Holds.congr (ho : Holds decode before given o)
    (hsame : ∀ field, (given field).map (decode field) = (given' field).map (decode field)) :
    Holds decode before given' o := by
  intro field
  have hfield := ho field
  have hmap := hsame field
  cases hgiven : given field <;> cases hgiven' : given' field <;>
    simp only [hgiven, hgiven', Option.map_some, Option.map_none, reduceCtorEq, Option.some.injEq]
      at hfield hmap ⊢
  · exact hfield
  · exact hmap ▸ hfield

end Holds

namespace SetsByName

variable {α ε : Type} {step : CopyOptions → String × α → Except ε CopyOptions}
  {decode : (field : CopyField) → α → Except ε field.Value} {o o' : CopyOptions} {e : ε}
  {pairs : List (String × α)}

/-- Whether a named value is accepted does not depend on the options. -/
theorem accepts_or_refuses (h : SetsByName step decode) (p : String × α) :
    Accepts step p ∨ ∃ e, ∀ o, step o p = .error e := by
  obtain ⟨name, a⟩ := p
  cases hname : CopyField.ofName? name with
  | none =>
    refine (h.unnamed hname a).imp_left fun hkeep o => ⟨o, hkeep o⟩
  | some field =>
    obtain rfl := CopyField.ofName?_eq_some_iff.mp hname
    cases hdecode : decode field a with
    | error e =>
      refine .inr ⟨e, fun o => ?_⟩
      rw [h.named, hdecode]
      rfl
    | ok v =>
      refine .inl fun o => ⟨o.put field v, ?_⟩
      rw [h.named, hdecode]
      rfl

theorem get_of_name (h : SetsByName step decode) {field : CopyField} {a : α}
    (hstep : step o (field.name, a) = .ok o') : decode field a = .ok (o'.get field) := by
  rw [h.named] at hstep
  cases hdecode : decode field a with
  | error e => simp [hdecode, Except.map] at hstep
  | ok v =>
    rw [hdecode] at hstep
    obtain rfl := Except.ok.inj hstep
    rw [get_put]

theorem get_of_ne (h : SetsByName step decode) {p : String × α} {field : CopyField}
    (hstep : step o p = .ok o') (hne : field.name ≠ p.1) : o'.get field = o.get field := by
  obtain ⟨name, a⟩ := p
  cases hname : CopyField.ofName? name with
  | none =>
    rcases h.unnamed hname a with hkeep | ⟨e, hrefuse⟩
    · obtain rfl := Except.ok.inj ((hkeep o).symm.trans hstep)
      rfl
    · simp [hrefuse o] at hstep
  | some other =>
    obtain rfl := CopyField.ofName?_eq_some_iff.mp hname
    rw [h.named] at hstep
    cases hdecode : decode other a with
    | error e => simp [hdecode, Except.map] at hstep
    | ok v =>
      rw [hdecode] at hstep
      obtain rfl := Except.ok.inj hstep
      exact get_put_of_ne (fun heq => hne (congrArg CopyField.name heq)) o v

/-- After a list each field holds what the last value with its name stands for. -/
theorem holds_foldlM (h : SetsByName step decode) (hrun : pairs.foldlM step o = .ok o') :
    Holds decode o (fun field => lastValue? field.name pairs) o' := by
  induction pairs using List.reverseRecOn generalizing o' with
  | nil =>
    obtain rfl := Except.ok.inj hrun
    exact fun field => rfl
  | append_singleton pairs p ih =>
    rw [List.foldlM_append] at hrun
    cases hmid : pairs.foldlM step o with
    | error e => simp [hmid, bind, Except.bind] at hrun
    | ok mid =>
      rw [hmid] at hrun
      have hstep : step mid p = .ok o' := (bind_pure (step mid p)).symm.trans hrun
      intro field
      have hbefore := ih hmid field
      dsimp only at hbefore ⊢
      rw [lastValue?_concat]
      by_cases hname : field.name = p.1
      · rw [if_pos hname]
        obtain ⟨name, a⟩ := p
        obtain rfl : field.name = name := hname
        exact h.get_of_name hstep
      · rw [if_neg hname, h.get_of_ne hstep hname]
        exact hbefore

/-- A list is accepted if each of its values is. -/
theorem exists_foldlM_iff (h : SetsByName step decode) :
    (∃ o', pairs.foldlM step o = .ok o') ↔ ∀ p ∈ pairs, Accepts step p := by
  induction pairs generalizing o with
  | nil => exact ⟨fun _ p hp => by simp at hp, fun _ => ⟨o, rfl⟩⟩
  | cons p pairs ih =>
    rw [List.foldlM_cons, List.forall_mem_cons]
    rcases h.accepts_or_refuses p with haccept | ⟨e, hrefuse⟩
    · obtain ⟨next, hnext⟩ := haccept o
      rw [hnext]
      exact ih.trans ⟨fun hall => ⟨haccept, hall⟩, And.right⟩
    · rw [hrefuse o]
      constructor
      · rintro ⟨o', hrun⟩
        cases hrun
      · rintro ⟨haccept, -⟩
        obtain ⟨o', hstep⟩ := haccept o
        simp [hrefuse o] at hstep

/-- A list that is not accepted is refused for the first of its values that is. -/
theorem foldlM_eq_error_iff (h : SetsByName step decode) :
    pairs.foldlM step o = .error e ↔ ∃ before p after, pairs = before ++ p :: after ∧
      (∀ q ∈ before, Accepts step q) ∧ ∀ o, step o p = .error e := by
  constructor
  · intro hrun
    induction pairs generalizing o with
    | nil => cases hrun
    | cons p pairs ih =>
      rw [List.foldlM_cons] at hrun
      rcases h.accepts_or_refuses p with haccept | ⟨e', hrefuse⟩
      · obtain ⟨next, hnext⟩ := haccept o
        rw [hnext] at hrun
        obtain ⟨before, q, after, rfl, hbefore, hq⟩ := ih hrun
        exact ⟨p :: before, q, after, rfl, List.forall_mem_cons.mpr ⟨haccept, hbefore⟩, hq⟩
      · rw [hrefuse o] at hrun
        obtain rfl : e' = e := Except.error.inj hrun
        exact ⟨[], p, pairs, rfl, by simp, hrefuse⟩
  · rintro ⟨before, p, after, rfl, hbefore, hrefuse⟩
    obtain ⟨mid, hmid⟩ := h.exists_foldlM_iff (o := o).mpr hbefore
    rw [List.foldlM_append, hmid]
    show (p :: after).foldlM step mid = _
    rw [List.foldlM_cons, hrefuse mid]
    rfl

/-- Values that all stand for what certain options hold lead to these options, in any order and as
often as they may stand, if the fields without a value held that from the beginning. -/
theorem foldlM_eq_ok (h : SetsByName step decode)
    (hpairs : ∀ p ∈ pairs, ∃ field : CopyField, field.name = p.1 ∧
      decode field p.2 = .ok (o'.get field))
    (hrest : ∀ field, lastValue? field.name pairs = none → o.get field = o'.get field) :
    pairs.foldlM step o = .ok o' := by
  have haccept : ∀ p ∈ pairs, Accepts step p := by
    rintro ⟨name, a⟩ hp before
    obtain ⟨field, rfl, hdecode⟩ := hpairs _ hp
    exact ⟨_, by rw [h.named, hdecode]; rfl⟩
  obtain ⟨last, hlast⟩ := h.exists_foldlM_iff (o := o).mpr haccept
  suffices hsame : last = o' by rw [hlast, hsame]
  refine (h.holds_foldlM hlast).eq fun field => ?_
  dsimp only
  cases hvalue : lastValue? field.name pairs with
  | none => exact (hrest field hvalue).symm
  | some a =>
    obtain ⟨other, hname, hdecode⟩ := hpairs _ (mem_of_lastValue? hvalue)
    obtain rfl := CopyField.name_injective hname
    exact hdecode

/-- A value with no other of its name behind it may as well be the last. -/
theorem foldlM_insert (h : SetsByName step decode) {base : CopyOptions} {field : CopyField} {a : α}
    {after : List (String × α)} (hlast : ∀ p ∈ after, field.name ≠ p.1)
    (hrest : (pairs ++ after).foldlM step base = .ok o) :
    (pairs ++ (field.name, a) :: after).foldlM step base = step o (field.name, a) := by
  have haccept := h.exists_foldlM_iff.mp ⟨o, hrest⟩
  rcases h.accepts_or_refuses (field.name, a) with hvalue | ⟨e, hrefuse⟩
  · obtain ⟨o', hstep⟩ := hvalue o
    have hall : ∀ p ∈ pairs ++ (field.name, a) :: after, Accepts step p := by
      intro p hp
      rcases List.mem_cons.mp (List.perm_middle.mem_iff.mp hp) with rfl | hp
      · exact hvalue
      · exact haccept p hp
    obtain ⟨last, hrun⟩ := h.exists_foldlM_iff (o := base).mpr hall
    suffices hsame : last = o' by rw [hrun, hstep, hsame]
    refine (h.holds_foldlM hrun).eq fun other => ?_
    have hother := h.holds_foldlM hrest other
    dsimp only at hother ⊢
    rw [lastValue?_append, lastValue?_cons]
    by_cases heq : other = field
    · subst heq
      rw [lastValue?_eq_none_iff.mpr hlast, if_pos rfl]
      exact h.get_of_name hstep
    · have hname : other.name ≠ field.name := fun hname => heq (CopyField.name_injective hname)
      rw [if_neg hname, Option.or_none, ← lastValue?_append, h.get_of_ne hstep hname]
      exact hother
  · rw [hrefuse o, h.foldlM_eq_error_iff]
    exact ⟨pairs, _, after, rfl, fun p hp => haccept p (List.mem_append_left _ hp), hrefuse⟩

end SetsByName

end CopyOptions

section TakeFields

variable {σ : Type} {known seen : List String} {take : σ → String × Datum → Except DatumFault σ}
  {s s' : σ} {fields : List (String × Datum)}

def knownNames (known : List String) (fields : List (String × Datum)) : List String :=
  (fields.map Prod.fst).filter (· ∈ known)

theorem knownNames_cons (known : List String) (p : String × Datum)
    (fields : List (String × Datum)) :
    knownNames known (p :: fields) =
      if p.1 ∈ known then p.1 :: knownNames known fields else knownNames known fields := by
  simp only [knownNames, List.map_cons, List.filter_cons, decide_eq_true_eq]

/-- Fields are taken one by one where no known name stands twice. -/
theorem takeFields_eq_foldlM (hseen : ∀ name ∈ seen, name ∈ known)
    (h : (seen ++ knownNames known fields).Nodup) :
    takeFields known take seen s fields = fields.foldlM take s := by
  induction fields generalizing seen s with
  | nil => rfl
  | cons p fields ih =>
    rw [knownNames_cons] at h
    rw [takeFields, List.foldlM_cons]
    by_cases hknown : p.1 ∈ known
    · rw [if_pos hknown] at h
      have hmoved := List.perm_middle.nodup_iff.mp h
      have hnew : p.1 ∉ seen := fun hmem =>
        (List.nodup_cons.mp hmoved).1 (List.mem_append_left _ hmem)
      rw [if_neg hnew, if_pos hknown]
      exact bind_congr fun next => ih (List.forall_mem_cons.mpr ⟨hknown, hseen⟩) hmoved
    · rw [if_neg hknown] at h
      rw [if_neg (mt (hseen p.1) hknown), if_neg hknown]
      exact bind_congr fun next => ih hseen h

theorem nodup_of_takeFields (hseen : seen.Nodup)
    (h : takeFields known take seen s fields = .ok s') :
    (seen ++ knownNames known fields).Nodup := by
  induction fields generalizing seen s with
  | nil =>
    rw [knownNames, List.map_nil, List.filter_nil, List.append_nil]
    exact hseen
  | cons p fields ih =>
    rw [takeFields] at h
    split at h
    · cases h
    · next hnew =>
      cases htake : take s p with
      | error fault =>
        rw [htake] at h
        cases h
      | ok next =>
        rw [htake] at h
        rw [knownNames_cons]
        by_cases hknown : p.1 ∈ known
        · rw [if_pos hknown] at h ⊢
          exact List.perm_middle.nodup_iff.mpr (ih (List.nodup_cons.mpr ⟨hnew, hseen⟩) h)
        · rw [if_neg hknown] at h ⊢
          exact ih hseen h

end TakeFields

namespace CopyOptions

def setPair (o : CopyOptions) (p : String × String) : Except Error CopyOptions := o.set p.1 p.2

theorem ofSettings_eq (settings : List (String × String)) :
    ofSettings settings = settings.foldlM setPair default := rfl

theorem setsByName_setPair : SetsByName setPair CopyField.parse where
  named o field text := by
    rw [setPair, CopyOptions.set, CopyField.ofName?_eq_some_iff.mpr rfl]
    exact assign_eq o field text
  unnamed {name} h text := .inr ⟨.invalidOption name .unknownOption, fun o => by
    rw [setPair, CopyOptions.set, h]⟩

theorem setsByName_takeDatum (r : Reading) : SetsByName (takeDatum r) (CopyField.read r) where
  named o field d := by
    rw [takeDatum, CopyField.ofName?_eq_some_iff.mpr rfl]
    exact assignDatum_eq r o field d
  unnamed h d := .inl fun o => by rw [takeDatum, h]

theorem ofDatum_table {fields : List (String × Datum)}
    (h : (knownNames CopyField.names fields).Nodup) (r : Reading) :
    ofDatum r (.table fields) = fields.foldlM (takeDatum r) default :=
  takeFields_eq_foldlM (by simp) h

/-- Options are read from no table that has one of them twice. -/
theorem nodup_knownNames {r : Reading} {fields : List (String × Datum)} {o : CopyOptions}
    (h : ofDatum r (.table fields) = .ok o) : (knownNames CopyField.names fields).Nodup :=
  nodup_of_takeFields List.nodup_nil h

theorem holds_of_ofDatum {r : Reading} {fields : List (String × Datum)} {o : CopyOptions}
    (h : ofDatum r (.table fields) = .ok o) :
    Holds (CopyField.read r) default (fun field => lastValue? field.name fields) o := by
  have hnodup := nodup_knownNames h
  rw [ofDatum_table hnodup] at h
  exact (setsByName_takeDatum r).holds_foldlM h

/-- A table is refused for a field whose value stands for nothing. -/
theorem ofDatum_table_eq_error_iff {r : Reading} {fields : List (String × Datum)}
    (hnodup : (fields.map Prod.fst).Nodup) :
    (∃ fault, ofDatum r (.table fields) = .error fault) ↔
      ∃ field : CopyField, ∃ fault d, lastValue? field.name fields = some d ∧
        field.read r d = .error fault := by
  have hsets := setsByName_takeDatum r
  constructor
  · rintro ⟨fault, hrun⟩
    rw [ofDatum_table (hnodup.filter _)] at hrun
    obtain ⟨before, ⟨name, d⟩, after, rfl, -, hrefuse⟩ := hsets.foldlM_eq_error_iff.mp hrun
    have hstep := hrefuse default
    cases hname : CopyField.ofName? name with
    | none => simp [takeDatum, hname] at hstep
    | some field =>
      obtain rfl := CopyField.ofName?_eq_some_iff.mp hname
      rw [hsets.named] at hstep
      cases hread : field.read r d with
      | ok v => simp [hread, Except.map] at hstep
      | error e => exact ⟨field, e, d, (lastValue?_eq_some_iff hnodup).mpr (by simp), hread⟩
  · rintro ⟨field, fault, d, hvalue, hread⟩
    cases hrun : ofDatum r (.table fields) with
    | error e => exact ⟨e, rfl⟩
    | ok o =>
      have hfield := (holds_of_ofDatum hrun).get_of_some field hvalue
      simp [hread] at hfield

end CopyOptions

end DriveRescue
