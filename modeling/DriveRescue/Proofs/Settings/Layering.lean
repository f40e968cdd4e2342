import DriveRescue.Proofs.Settings.Fields
import DriveRescue.Settings.Layers

/-! Options in layers. Whatever the layers below hold, and whatever else a layer holds, an option is
read from the highest layer that names it. -/
namespace DriveRescue

namespace Datum

theorem lookup_putField {α : Type} (key name : String) (a : α) (fields : List (String × α)) :
    (putField key a fields).lookup name = if name = key then some a else fields.lookup name := by
  induction fields with
  | nil => exact lookup_cons_eq name (key, a) []
  | cons p fields ih =>
    obtain ⟨other, b⟩ := p
    rw [putField]
    split
    · next heq =>
      subst heq
      rw [lookup_cons_eq, lookup_cons_eq]
      by_cases h : name = other
      · rw [if_pos h, if_pos h]
      · rw [if_neg h, if_neg h, if_neg h]
    · next hne =>
      rw [lookup_cons_eq, lookup_cons_eq, ih]
      by_cases h : name = other
      · subst h
        rw [if_pos rfl, if_neg hne, if_pos rfl]
      · rw [if_neg h, if_neg h]

theorem putField_of_new {α : Type} {key : String} {a : α} {fields : List (String × α)}
    (h : ∀ p ∈ fields, p.1 ≠ key) : putField key a fields = fields ++ [(key, a)] := by
  induction fields with
  | nil => rfl
  | cons p fields ih =>
    obtain ⟨hp, hrest⟩ := List.forall_mem_cons.mp h
    rw [putField, if_neg hp, ih hrest]
    rfl

theorem laidOver_eq {value : Datum} {old : Option Datum}
    (h : old = none ∨ ∀ fields, value ≠ table fields) : value.laidOver old = value := by
  cases old with
  | none => rfl
  | some old =>
    have hvalue := h.resolve_left (by simp)
    cases value with
    | table fields => exact absurd rfl (hvalue fields)
    | _ => exact merge.eq_2 old _ hvalue

theorem lookup_putName (d value : Datum) (key name : String) :
    (d.putName key value).fields.lookup name =
      if name = key then some (value.laidOver (d.fields.lookup key)) else d.fields.lookup name :=
  lookup_putField ..

def IsRecord (d : Datum) : Prop := ∃ fields, d = table fields ∧ (fields.map Prod.fst).Nodup

theorem IsRecord.putName {d : Datum} (h : d.IsRecord) (name : String) (value : Datum) :
    (d.putName name value).IsRecord := by
  obtain ⟨fields, rfl, hnodup⟩ := h
  exact ⟨_, rfl, Settings.nodup_putField hnodup⟩

end Datum

theorem CopyField.isPlain_name (field : CopyField) : KeyPath.isPlain field.name := by
  cases field <;> decide +kernel

namespace Settings

namespace Layer

variable {α β : Type}

theorem value?_eq (layer : Layer α) (name : String) :
    layer.value? name = lastValue? name layer.fields := lookup_eq_lastValue? layer.nodup name

theorem value?_map (f : α → β) (layer : Layer α) (name : String) :
    (layer.map f).value? name = (layer.value? name).map f := by
  simp only [value?, map]
  induction layer.fields with
  | nil => rfl
  | cons p fields ih =>
    rw [List.map_cons, lookup_cons_eq, lookup_cons_eq, ih]
    split <;> rfl

theorem Plain.map {layer : Layer α} (h : layer.Plain) (f : α → β) : (layer.map f).Plain := by
  intro p hp
  obtain ⟨q, hq, rfl⟩ := List.mem_map.mp hp
  exact h q hq

theorem value?_ofList (pairs : List (String × α)) (name : String) :
    (ofList pairs).value? name = lastValue? name pairs := by
  induction pairs using List.reverseRecOn with
  | nil => rfl
  | append_singleton pairs p ih =>
    rw [ofList, List.foldl_concat, lastValue?_concat, ← ih]
    exact Datum.lookup_putField ..

theorem fields_ofList {pairs : List (String × α)} (h : (pairs.map Prod.fst).Nodup) :
    (ofList pairs).fields = pairs := by
  induction pairs using List.reverseRecOn with
  | nil => rfl
  | append_singleton pairs p ih =>
    rw [List.map_append, List.nodup_append] at h
    have hnew : ∀ q ∈ pairs, q.1 ≠ p.1 := fun q hq =>
      h.2.2 q.1 (List.mem_map_of_mem hq) p.1 (by simp)
    rw [ofList, List.foldl_concat]
    show Datum.putField p.1 p.2 (ofList pairs).fields = _
    rw [ih h.1, Datum.putField_of_new hnew]

end Layer

section Standard

variable {layer : List (String × Datum)} {base : Datum} {sources : List (Layer Datum)}

theorem addLayer_concat {p : String × Datum} (h : KeyPath.isPlain p.1) :
    addLayer base (layer ++ [p]) = (addLayer base layer).putName p.1 p.2 := by
  rw [addLayer, List.foldl_concat]
  show (addLayer base layer).put ((KeyPath.parse? p.1).getD [.field p.1]) p.2 = _
  rw [KeyPath.parse?_of_isPlain h]
  exact Datum.put.eq_2 ..

theorem isRecord_addLayer (hbase : base.IsRecord) (hplain : ∀ p ∈ layer, KeyPath.isPlain p.1) :
    (addLayer base layer).IsRecord := by
  induction layer using List.reverseRecOn with
  | nil => exact hbase
  | append_singleton layer p ih =>
    rw [addLayer_concat (hplain p (by simp))]
    exact (ih fun q hq => hplain q (List.mem_append_left _ hq)).putName ..

theorem lookup_addLayer {name : String} (hplain : ∀ p ∈ layer, KeyPath.isPlain p.1)
    (hnodup : (layer.map Prod.fst).Nodup)
    (h : base.fields.lookup name = none ∨ ∀ fields, lastValue? name layer ≠ some (.table fields)) :
    (addLayer base layer).fields.lookup name =
      (lastValue? name layer).or (base.fields.lookup name) := by
  induction layer using List.reverseRecOn with
  | nil => rfl
  | append_singleton layer p ih =>
    rw [List.map_append, List.nodup_append] at hnodup
    have hbelow := ih (fun q hq => hplain q (List.mem_append_left _ hq)) hnodup.1
    rw [lastValue?_concat] at h
    rw [addLayer_concat (hplain p (by simp)), Datum.lookup_putName, lastValue?_concat]
    by_cases hname : name = p.1
    · subst hname
      -- No other value of the layer has the name, so that it is put over what lies below.
      have hnew : lastValue? p.1 layer = none := lastValue?_eq_none_iff.mpr fun q hq =>
        (hnodup.2.2 q.1 (List.mem_map_of_mem hq) p.1 (by simp)).symm
      rw [hnew, Option.none_or] at hbelow
      rw [if_pos rfl] at h
      rw [if_pos rfl, if_pos rfl, hbelow (.inr (by simp)), Datum.laidOver_eq]
      · rfl
      · exact h.imp_right fun hvalue fields heq => hvalue fields (congrArg some heq)
    · rw [if_neg hname] at h
      rw [if_neg hname, if_neg hname]
      exact hbelow h

theorem texts_concat (explicit : List (String × String)) (p : String × String) :
    texts (explicit ++ [p]) = texts explicit ++ [(p.1, .text p.2)] := List.map_append

theorem isPlain_texts {explicit : List (String × String)}
    (h : ∀ p ∈ explicit, KeyPath.isPlain p.1) : ∀ p ∈ texts explicit, KeyPath.isPlain p.1 := by
  intro p hp
  obtain ⟨q, hq, rfl⟩ := List.mem_map.mp hp
  exact h q hq

theorem isRecord_layered {explicit : List (String × String)}
    (hsources : ∀ source ∈ sources, source.Plain)
    (hexplicit : ∀ p ∈ explicit, KeyPath.isPlain p.1) :
    (layered sources explicit).IsRecord := by
  refine isRecord_addLayer ?_ (isPlain_texts hexplicit)
  induction sources using List.reverseRecOn with
  | nil => exact ⟨[], rfl, List.nodup_nil⟩
  | append_singleton sources source ih =>
    rw [List.foldl_concat]
    exact isRecord_addLayer (ih fun l hl => hsources l (List.mem_append_left _ hl))
      (hsources source (by simp))

theorem value?_of_build {explicit : List (String × String)} {built : Layer Datum}
    (hsources : ∀ source ∈ sources, source.Plain)
    (hexplicit : ∀ p ∈ explicit, KeyPath.isPlain p.1)
    (h : Library.standard.build sources explicit = .ok built) (name : String) :
    built.value? name = (layered sources explicit).fields.lookup name := by
  obtain rfl := Except.ok.inj h
  obtain ⟨fields, hlayered, hnodup⟩ := isRecord_layered hsources hexplicit
  rw [Layer.value?_ofList, hlayered]
  exact (lookup_eq_lastValue? hnodup name).symm

theorem Library.standard_lawful : Library.standard.Lawful where
  checkName h := by
    show (if (KeyPath.parse? _).isSome then _ else _) = _
    rw [KeyPath.parse?_of_isPlain h]
    rfl
  build_nil := rfl
  exists_build _ _ := ⟨_, rfl⟩
  value?_source {sources source below built name} hplain hbelow hbuilt h := by
    have hsources : ∀ l ∈ sources, l.Plain := fun l hl => hplain l (List.mem_append_left _ hl)
    have hnone := List.forall_mem_nil fun p : String × String => KeyPath.isPlain p.1 = true
    rw [value?_of_build hsources hnone hbelow, Layer.value?_eq] at h
    rw [value?_of_build hplain hnone hbuilt, value?_of_build hsources hnone hbelow, Layer.value?_eq]
    have hlast :
        layered (sources ++ [source]) [] = addLayer (layered sources []) source.fields := by
      rw [layered, List.foldl_concat]
      rfl
    rw [hlast]
    exact lookup_addLayer (hplain source (by simp)) source.nodup h
  value?_explicit {sources explicit p below built name} hsources hplain hbelow hbuilt := by
    have hfirst : ∀ q ∈ explicit, KeyPath.isPlain q.1 := fun q hq =>
      hplain q (List.mem_append_left _ hq)
    rw [value?_of_build hsources hplain hbuilt, value?_of_build hsources hfirst hbelow]
    have hlast : layered sources (explicit ++ [p]) =
        (layered sources explicit).putName p.1 (.text p.2) := by
      rw [layered, texts_concat]
      exact addLayer_concat (hplain p (by simp))
    rw [hlast, Datum.lookup_putName, Datum.laidOver_eq (.inr (by simp))]

/-- The fields of a TOML document are taken as they are. -/
theorem Library.standard_file_toml {content : String} {fields : List (String × Datum)}
    (h : Document.Toml.parse? content = some fields) :
    ∃ layer, Library.standard.file (.found .toml content) = .ok layer ∧ layer.fields = fields := by
  have hfields : ConfigFile.fields (.found .toml content) = .ok fields := by
    have hformat : Document.Format.toml.fields? content = some fields := h
    rw [ConfigFile.fields, hformat]
  refine ⟨.ofList fields, ?_, Layer.fields_ofList (Document.Toml.nodup_of_parse? h)⟩
  show (ConfigFile.fields _).map Layer.ofList = _
  rw [hfields]
  rfl

end Standard

/-- The value of a name in the first of the layers that has it. -/
def highest? (layers : List (List (String × Datum))) (name : String) : Option Datum :=
  layers.findSome? (lastValue? name)

theorem highest?_cons (layer : List (String × Datum)) (layers : List (List (String × Datum)))
    (name : String) :
    highest? (layer :: layers) name = (lastValue? name layer).or (highest? layers name) := by
  rw [highest?, List.findSome?_cons]
  cases lastValue? name layer <;> rfl

theorem isSome_highest? {layers : List (List (String × Datum))} {name : String} :
    (highest? layers name).isSome ↔ ∃ layer ∈ layers, ∃ d, (name, d) ∈ layer := by
  simp only [highest?, List.findSome?_isSome_iff, isSome_lastValue?]

section Layered

variable {lib : Library} {file : ConfigFile} {fields : Layer Datum} {marked : Layer String}
  {environment explicit : List (String × String)}

theorem plain_sources (hfields : fields.Plain) (hmarked : marked.Plain) :
    ∀ source ∈ [fields, marked.map Datum.text], source.Plain := by
  simpa using ⟨hfields, hmarked.map Datum.text⟩

namespace Library.Lawful

theorem checkNames (hlib : lib.Lawful) (hexplicit : ∀ p ∈ explicit, KeyPath.isPlain p.1) :
    explicit.forM (fun p => lib.checkName p.1) = .ok () := by
  induction explicit with
  | nil => rfl
  | cons p explicit ih =>
    obtain ⟨hp, hrest⟩ := List.forall_mem_cons.mp hexplicit
    rw [List.forM_eq_forM, List.forM_cons, hlib.checkName hp, ← List.forM_eq_forM]
    exact ih hrest

/-- Two sources of which the one above holds texts. -/
theorem exists_sources (hlib : lib.Lawful) (hfields : fields.Plain) (hmarked : marked.Plain) :
    ∃ below, lib.build [fields, marked.map .text] [] = .ok below ∧ ∀ name,
      below.value? name = ((marked.map Datum.text).value? name).or (fields.value? name) := by
  have hone : ∀ source ∈ [fields], source.Plain := by simpa using hfields
  have htwo := plain_sources hfields hmarked
  obtain ⟨lowest, hlowest⟩ := hlib.exists_build hone (List.forall_mem_nil _)
  obtain ⟨below, hbelow⟩ := hlib.exists_build htwo (List.forall_mem_nil _)
  refine ⟨below, hbelow, fun name => ?_⟩
  have hfirst : lowest.value? name = fields.value? name := by
    rw [hlib.value?_source hone hlib.build_nil hlowest (.inl rfl)]
    exact Option.or_none
  rw [hlib.value?_source htwo hlowest hbelow (.inr fun inner heq => ?_), hfirst]
  rw [Layer.value?_map] at heq
  obtain ⟨text, -, htext⟩ := Option.map_eq_some_iff.mp heq
  cases htext

/-- Explicit settings are over all sources, and of those with the same name the last one counts. -/
theorem value?_build (hlib : lib.Lawful) {sources : List (Layer Datum)} {below : Layer Datum}
    (hsources : ∀ source ∈ sources, source.Plain) (hbelow : lib.build sources [] = .ok below)
    (hexplicit : ∀ p ∈ explicit, KeyPath.isPlain p.1) :
    ∃ built, lib.build sources explicit = .ok built ∧ ∀ name,
      built.value? name = (lastValue? name (texts explicit)).or (below.value? name) := by
  induction explicit using List.reverseRecOn with
  | nil => exact ⟨below, hbelow, fun name => rfl⟩
  | append_singleton explicit p ih =>
    obtain ⟨first, hfirst, hvalues⟩ := ih fun q hq => hexplicit q (List.mem_append_left _ hq)
    obtain ⟨built, hbuilt⟩ := hlib.exists_build hsources hexplicit
    refine ⟨built, hbuilt, fun name => ?_⟩
    rw [hlib.value?_explicit hsources hexplicit hfirst hbuilt, texts_concat, lastValue?_concat,
      hvalues]
    split <;> rfl

/-- What is built gives each name the value of the highest layer that has it. -/
theorem exists_layered (hlib : lib.Lawful) (hfields : fields.Plain) (hmarked : marked.Plain)
    (hexplicit : ∀ p ∈ explicit, KeyPath.isPlain p.1) :
    ∃ built, lib.build [fields, marked.map .text] explicit = .ok built ∧ ∀ name,
      built.value? name =
        highest? [texts explicit, texts marked.fields, fields.fields] name := by
  obtain ⟨below, hbelow, hsources⟩ := hlib.exists_sources hfields hmarked
  obtain ⟨built, hbuilt, hvalues⟩ :=
    hlib.value?_build (plain_sources hfields hmarked) hbelow hexplicit
  refine ⟨built, hbuilt, fun name => ?_⟩
  rw [hvalues, hsources, Layer.value?_eq, Layer.value?_eq, highest?_cons, highest?_cons,
    highest?_cons]
  exact congrArg _ (congrArg _ Option.or_none.symm)

end Library.Lawful

/-- What is loaded is read from what is built, and no name of an explicit setting is refused. -/
theorem load_eq {built : Layer Datum} (hlib : lib.Lawful) (hfile : lib.file file = .ok fields)
    (hexplicit : ∀ p ∈ explicit, KeyPath.isPlain p.1)
    (hbuilt : lib.build [fields, (lib.environment environmentMark environment).map .text] explicit =
      .ok built) :
    load lib file environment explicit =
      match CopyOptions.ofDatum lib.reading (.table built.fields) with
      | .ok o => .ok (o, ((built.value? CopyField.api.name).bind lib.reading.text).isSome)
      | .error (.invalid e) => .error (.configuration e.message)
      | .error .mismatch => .error (.configuration "a setting has a value of the wrong type") := by
  rw [load, hlib.checkNames hexplicit, hfile]
  dsimp only [bind, Except.bind]
  rw [hbuilt]
  rfl

/-- A way to the source that is read from the layers is a text. -/
theorem isSome_text_of_holds {given : CopyField → Option Datum} {r : Reading} {o : CopyOptions}
    (h : CopyOptions.Holds (CopyField.read r) .default given o) :
    ((given .api).bind r.text).isSome = (given .api).isSome := by
  cases hgiven : given .api with
  | none => rfl
  | some d =>
    have hread := h.get_of_some .api hgiven
    rw [CopyField.read] at hread
    rw [Option.bind_some]
    cases htext : r.text d with
    | none =>
      rw [htext] at hread
      cases hread
    | some text => rfl

/-- Each option is read from the highest layer that names it: the explicit settings, then the
environment, then the file. No layer below and no other name counts, but for a value in the highest
layer that stands for nothing, which is what alone makes loading fail. Whether a way to the source
was chosen tells whether any layer names one. -/
theorem load_takes_highest (hlib : lib.Lawful) (hfile : lib.file file = .ok fields)
    (hfields : fields.Plain) (henvironment : (lib.environment environmentMark environment).Plain)
    (hexplicit : ∀ p ∈ explicit, ∃ field : CopyField, field.name = p.1) :
    let layers := [texts explicit, texts (lib.environment environmentMark environment).fields,
      fields.fields]
    (∀ o chosen, load lib file environment explicit = .ok (o, chosen) →
      CopyOptions.Holds (CopyField.read lib.reading) .default
        (fun field => highest? layers field.name) o ∧
      (chosen = true ↔ ∃ layer ∈ layers, ∃ d, ("api", d) ∈ layer) ∧
      (chosen = false → o.api = .posix)) ∧
    ((∃ e, load lib file environment explicit = .error e) ↔
      ∃ field : CopyField, ∃ fault d, highest? layers field.name = some d ∧
        field.read lib.reading d = .error fault) := by
  intro layers
  have hplain : ∀ p ∈ explicit, KeyPath.isPlain p.1 := by
    intro p hp
    obtain ⟨field, hname⟩ := hexplicit p hp
    rw [← hname]
    exact field.isPlain_name
  obtain ⟨built, hbuilt, hvalues⟩ := hlib.exists_layered hfields henvironment hplain
  have hlast : ∀ name, lastValue? name built.fields = highest? layers name := fun name =>
    (built.value?_eq name).symm.trans (hvalues name)
  rw [load_eq hlib hfile hplain hbuilt]
  refine ⟨fun o chosen hok => ?_, ?_⟩
  · cases hread : CopyOptions.ofDatum lib.reading (.table built.fields) with
    | error fault =>
      rw [hread] at hok
      cases fault <;> cases hok
    | ok o' =>
      rw [hread] at hok
      obtain ⟨rfl, rfl⟩ := Prod.mk.inj (Except.ok.inj hok)
      have hholds := CopyOptions.holds_of_ofDatum hread
      simp only [hlast] at hholds
      have hchosen := isSome_text_of_holds hholds
      rw [hvalues, hchosen]
      refine ⟨hholds, isSome_highest?, fun hnone => hholds.get_of_none .api ?_⟩
      exact Option.isNone_iff_eq_none.mp (Option.isSome_eq_false_iff.mp hnone)
  · have hfails := CopyOptions.ofDatum_table_eq_error_iff (r := lib.reading) built.nodup
    simp only [hlast] at hfails
    rw [← hfails]
    cases CopyOptions.ofDatum lib.reading (.table built.fields) with
    | ok o => simp
    | error fault => cases fault <;> simp

/-- The file's way to the source is none and its number of blocks is no number, yet the environment
and the explicit settings stand above both. Without the environment the way is refused. -/
theorem load_takes_highest_over_misfits :
    let content := "api = 7\nskip_blocks = \"many\"\nstart_lba = 3\n"
    let environment := [("HOME", "/root"), ("SALVAGE_API", "ata"), ("salvage_Skip_Blocks", "9")]
    let explicit := [("skip_blocks", "12")]
    let o : CopyOptions := { CopyOptions.default with api := .ata, skipBlocks := 12, startLba := 3 }
    load .standard (.found .toml content) environment explicit = .ok (o, true) ∧
      CopyField.skipBlocks.read .loose (.text "12") = .ok (o.get .skipBlocks) ∧
      ∃ e, load .standard (.found .toml content) [] explicit = .error e := by
  intro content environment explicit o
  have hparse : (Document.Toml.parse? content).isSome := by decide +kernel
  obtain ⟨pairs, hpairs⟩ := Option.isSome_iff_exists.mp hparse
  have hget : pairs = (Document.Toml.parse? content).getD [] := by rw [hpairs]; rfl
  obtain ⟨fields, hfile, hfields⟩ := Library.standard_file_toml hpairs
  rw [hget] at hfields
  have hplain : fields.Plain := by
    rw [Layer.Plain, hfields]
    decide +kernel
  have henvironment : (Library.standard.environment environmentMark environment).Plain := by
    rw [Layer.Plain]
    decide +kernel
  have hnone : (Library.standard.environment environmentMark []).Plain := by
    rw [Layer.Plain]
    decide +kernel
  have hexplicit : ∀ p ∈ explicit, ∃ field : CopyField, field.name = p.1 := by
    simp only [explicit, List.mem_singleton, forall_eq]
    exact ⟨.skipBlocks, rfl⟩
  have hload : load .standard (.found .toml content) environment explicit = .ok (o, true) := by
    decide +kernel
  have hapi : ((highest? [texts explicit, [], fields.fields] "api").map
      (CopyField.api.read .loose) : Option (Except DatumFault Api)) =
        some (.error (.invalid (.invalidOption "api" (.unknownAccess "7")))) := by
    rw [hfields]
    decide +kernel
  obtain ⟨d, hd, hrefuse⟩ := Option.map_eq_some_iff.mp hapi
  obtain ⟨hloaded, -⟩ :=
    load_takes_highest Library.standard_lawful hfile hplain henvironment hexplicit
  obtain ⟨-, hrefused⟩ := load_takes_highest Library.standard_lawful hfile hplain hnone hexplicit
  exact ⟨hload, (hloaded o true hload).1 .skipBlocks, hrefused.mpr ⟨.api, _, d, hd, hrefuse⟩⟩

end Layered

end Settings

end DriveRescue
