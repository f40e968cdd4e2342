import DriveRescue.Settings.File
import DriveRescue.Settings.KeyPath

/-! Copy options in layers: a file, the environment and explicit settings. A library lays them over
one another and reads their values. -/
namespace DriveRescue.Settings

section Layer

variable {α β : Type} {key : String} {a : α} {fields : List (String × α)}

theorem names_putField (key : String) (a : α) (fields : List (String × α)) :
    (Datum.putField key a fields).map Prod.fst =
      if key ∈ fields.map Prod.fst then fields.map Prod.fst else fields.map Prod.fst ++ [key] := by
  induction fields with
  | nil => rfl
  | cons p fields ih =>
    obtain ⟨other, b⟩ := p
    rw [Datum.putField]
    split
    · next heq =>
      subst heq
      simp
    · next hne =>
      rw [List.map_cons, ih]
      by_cases h : key ∈ fields.map Prod.fst <;> simp [h, Ne.symm hne]

theorem nodup_putField (h : (fields.map Prod.fst).Nodup) :
    ((Datum.putField key a fields).map Prod.fst).Nodup := by
  rw [names_putField]
  split
  · exact h
  · next hnew =>
    rw [List.nodup_append]
    refine ⟨h, by simp, fun name hname other hother => ?_⟩
    obtain rfl := List.mem_singleton.mp hother
    exact fun heq => hnew (heq ▸ hname)

structure Layer (α : Type) where
  fields : List (String × α)
  nodup : (fields.map Prod.fst).Nodup

namespace Layer

def empty : Layer α := ⟨[], List.nodup_nil⟩

def value? (layer : Layer α) (name : String) : Option α := layer.fields.lookup name

def put (layer : Layer α) (name : String) (a : α) : Layer α :=
  ⟨Datum.putField name a layer.fields, nodup_putField layer.nodup⟩

/-- Of values with the same name the last one stays. -/
def ofList (pairs : List (String × α)) : Layer α :=
  pairs.foldl (fun layer (name, a) => layer.put name a) empty

def map (f : α → β) (layer : Layer α) : Layer β where
  fields := layer.fields.map fun (name, a) => (name, f a)
  nodup := by
    rw [List.map_map]
    exact layer.nodup

def Plain (layer : Layer α) : Prop := ∀ p ∈ layer.fields, KeyPath.isPlain p.1

end Layer

end Layer

/-- What loading the options takes from a library of settings. -/
structure Library where
  /-- Refuses a name that cannot be set explicitly. -/
  checkName : String → Except Error Unit
  file : ConfigFile → Except Error (Layer Datum)
  /-- The texts of the variables whose names begin with a mark, by the rest of their names. -/
  environment : (mark : String) → (environment : List (String × String)) → Layer String
  /-- Lays sources over one another, the lowest first, and explicit settings over them all. -/
  build : (sources : List (Layer Datum)) → (explicit : List (String × String)) →
    Except Error (Layer Datum)
  /-- The texts, paths and numbers that values are taken for. -/
  reading : Reading

namespace Library

/-- Plain names are accepted. A source replaces those before it name by name, but where a table
meets a value below it; an explicit setting replaces whatever is there for its name. -/
structure Lawful (lib : Library) : Prop where
  checkName {name : String} : KeyPath.isPlain name → lib.checkName name = .ok ()
  build_nil : lib.build [] [] = .ok .empty
  exists_build {sources : List (Layer Datum)} {explicit : List (String × String)} :
    (∀ layer ∈ sources, layer.Plain) → (∀ p ∈ explicit, KeyPath.isPlain p.1) →
    ∃ built, lib.build sources explicit = .ok built
  value?_source {sources : List (Layer Datum)} {source below built : Layer Datum} {name : String} :
    (∀ layer ∈ sources ++ [source], layer.Plain) → lib.build sources [] = .ok below →
    lib.build (sources ++ [source]) [] = .ok built →
    (below.value? name = none ∨ ∀ fields, source.value? name ≠ some (.table fields)) →
    built.value? name = (source.value? name).or (below.value? name)
  value?_explicit {sources : List (Layer Datum)} {explicit : List (String × String)}
      {p : String × String} {below built : Layer Datum} {name : String} :
    (∀ layer ∈ sources, layer.Plain) → (∀ q ∈ explicit ++ [p], KeyPath.isPlain q.1) →
    lib.build sources explicit = .ok below → lib.build sources (explicit ++ [p]) = .ok built →
    built.value? name = if name = p.1 then some (.text p.2) else below.value? name

end Library

def environmentMark : String := "SALVAGE"

/-- The options after all layers, and whether any layer chose the way to the source. -/
def load (lib : Library) (file : ConfigFile) (environment explicit : List (String × String)) :
    Except Error (CopyOptions × Bool) := do
  explicit.forM fun p => lib.checkName p.1
  let fields ← lib.file file
  let marked := lib.environment environmentMark environment
  let layered ← lib.build [fields, marked.map .text] explicit
  let chosen := ((layered.value? CopyField.api.name).bind lib.reading.text).isSome
  match CopyOptions.ofDatum lib.reading (.table layered.fields) with
  | .ok options => return (options, chosen)
  | .error (.invalid e) => throw (.configuration e.message)
  | .error .mismatch => throw (.configuration "a setting has a value of the wrong type")

end DriveRescue.Settings
