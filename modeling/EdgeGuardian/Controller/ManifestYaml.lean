import EdgeGuardian.Controller.Manifests
import Mathlib.Data.List.Forall2

/-!
# Manifests between YAML, the database and the message

A user writes a manifest as YAML. The controller asks only that it is a mapping, takes what stands
under `metadata` and `spec`, and stores both as they are. Every heartbeat of a device whose manifest
is older makes a message of the stored row.

SnakeYAML gives a scalar the type that it looks like: `0644` is an octal number, `true` and `yes`
are truth values, `2024-01-01` is a point in time. The model takes the values as they reach the
message: Jackson writes them as JSON, the database keeps an object without its duplicate keys and in
an order of its own, and Jackson writes it again.

Source: `controller/src/main/java/com/edgeguardian/controller/service/ManifestYaml.java`,
lines 22–36, `mqtt/HeartbeatListener.java`, lines 74–94, `model/DeviceManifestEntity.java`.

## Main definitions

* `Yaml`, `ManifestYaml.parse`: what SnakeYAML loads, and what the controller takes from it.
* `Yaml.render`, `ManifestYaml.stored`: what becomes of it in the database.
* `desiredState`: the message of `pushDesiredState`.

## Main results

* `Yaml.rendered_members`: the members of a stored object are those of the mapping, value by value.
-/

namespace EdgeGuardian.Controller

/-! ### YAML -/

/-- A key of a mapping: a text, or `null`, or another value, which is given by the name that Jackson
writes for it. -/
inductive YamlKey
  | text (s : String)
  | other (name : String)
  | null
deriving DecidableEq, Repr

/-- The name of the member. -/
def YamlKey.name : YamlKey → Option String
  | .text s | .other s => some s
  | .null => none

/-- What SnakeYAML loads. A number is the decimal that the database returns for it, and a list
stands also for a set. -/
inductive Yaml
  | null
  | bool (b : Bool)
  | num (mantissa : ℤ) (exponent : ℕ)
  | str (s : String)
  /-- A scalar that is no text and that Jackson writes as one: binary data, a point in time, a float
  that is no number. -/
  | text (s : String)
  | seq (elements : List Yaml)
  | map (pairs : List (YamlKey × Yaml))
deriving Repr

/-- `Map.get` with a text. -/
def Yaml.get (name : String) (pairs : List (YamlKey × Yaml)) : Option Yaml :=
  (pairs.reverse.find? fun p => p.1 = .text name).map Prod.snd

namespace ManifestYaml

/-- `ManifestYaml.Parsed`. -/
structure Parsed where
  metadata : List (YamlKey × Yaml)
  spec : List (YamlKey × Yaml)

/-- `ManifestYaml.asMap`. -/
def asMap : Option Yaml → List (YamlKey × Yaml)
  | some (.map pairs) => pairs
  | _ => []

/-- `ManifestYaml.parse`, with SnakeYAML's `load`, which throws where it returns an error. -/
def parse (load : String → Except String Yaml) (content : Option String) : Except String Parsed :=
  match content.filter fun c => !isBlank c with
  | none => .error "Manifest content is empty"
  | some content =>
    match load content with
    | .error message => .error ("Invalid YAML: " ++ message)
    | .ok (.map root) => .ok ⟨asMap (Yaml.get "metadata" root), asMap (Yaml.get "spec" root)⟩
    | .ok _ => .error "Manifest must be a YAML mapping with metadata/spec"

end ManifestYaml

/-! ### Objects in the database -/

section Jsonb

variable {α β : Type*}

/-- The order of keys in a `jsonb` object: shorter ones first. -/
def keyLe (a b : String) : Prop :=
  a.utf8ByteSize < b.utf8ByteSize ∨ a.utf8ByteSize = b.utf8ByteSize ∧ a ≤ b

instance : DecidableRel keyLe := fun _ _ => inferInstanceAs (Decidable (_ ∨ _))

/-- Of the members with one key, the last one. -/
def lastOfKey : List (String × α) → List (String × α)
  | [] => []
  | m :: members => if m.1 ∈ members.map Prod.fst then lastOfKey members else m :: lastOfKey members

/-- The members of an object as `jsonb` keeps them. -/
def jsonb (members : List (String × α)) : List (String × α) :=
  (lastOfKey members).insertionSort fun a b => keyLe a.1 b.1

theorem mem_of_mem_lastOfKey {members : List (String × α)} {m : String × α}
    (h : m ∈ lastOfKey members) : m ∈ members := by
  induction members with
  | nil => exact h
  | cons m' members ih =>
    rw [lastOfKey] at h
    split_ifs at h
    · exact List.mem_cons_of_mem m' (ih h)
    · rcases List.mem_cons.mp h with rfl | h
      · exact List.mem_cons_self
      · exact List.mem_cons_of_mem m' (ih h)

theorem mem_of_mem_jsonb {members : List (String × α)} {m : String × α} (h : m ∈ jsonb members) :
    m ∈ members :=
  mem_of_mem_lastOfKey ((List.mem_insertionSort _).mp h)

theorem lastOfKey_map (f : α → β) (members : List (String × α)) :
    lastOfKey (members.map (Prod.map id f)) = (lastOfKey members).map (Prod.map id f) := by
  induction members with
  | nil => rfl
  | cons m members ih =>
    have hkeys : (members.map (Prod.map id f)).map Prod.fst = members.map Prod.fst := by
      rw [List.map_map]
      rfl
    rw [List.map_cons, lastOfKey, lastOfKey, hkeys, ih, Prod.map_fst, id]
    by_cases hm : m.1 ∈ members.map Prod.fst
    · rw [if_pos hm, if_pos hm]
    · rw [if_neg hm, if_neg hm, List.map_cons]

/-- What the database does with an object does not depend on its values. -/
theorem jsonb_map (f : α → β) (members : List (String × α)) :
    jsonb (members.map (Prod.map id f)) = (jsonb members).map (Prod.map id f) := by
  rw [jsonb, jsonb, lastOfKey_map]
  exact (List.map_insertionSort (fun a b : String × α => keyLe a.1 b.1)
    (fun a b : String × β => keyLe a.1 b.1) _ _ fun _ _ _ _ => Iff.rfl).symm

end Jsonb

/-! ### Rendering -/

namespace Yaml

mutual

/-- The JSON that a value has become when it is read from the database; `none` where writing it
fails, which a `null` key makes it do. -/
def render : Yaml → Option Json
  | .null => some .null
  | .bool b => some (.bool b)
  | .num mantissa exponent => some (.num mantissa exponent)
  | .str s => some (.str s)
  | .text s => some (.str s)
  | .seq elements => (renderElements elements).map .arr
  | .map pairs => (renderPairs pairs).map fun members => .obj (jsonb members)

def renderElements : List Yaml → Option (List Json)
  | [] => some []
  | y :: ys => do
    let json ← render y
    let rest ← renderElements ys
    return json :: rest

def renderPairs : List (YamlKey × Yaml) → Option (List (String × Json))
  | [] => some []
  | (key, y) :: pairs => do
    let name ← key.name
    let json ← render y
    let rest ← renderPairs pairs
    return (name, json) :: rest

end

/-- The members of a mapping under their names, as `jsonb` keeps them. -/
def members (pairs : List (YamlKey × Yaml)) : List (String × Yaml) :=
  jsonb (pairs.filterMap fun p => p.1.name.map fun name => (name, p.2))

theorem forall₂_renderElements {ys : List Yaml} {js : List Json}
    (h : renderElements ys = some js) : List.Forall₂ (fun y j => render y = some j) ys js := by
  induction ys generalizing js with
  | nil =>
    cases h
    exact .nil
  | cons y ys ih =>
    simp only [renderElements, Option.bind_eq_bind, Option.bind_eq_some_iff, Option.pure_def,
      Option.some.injEq] at h
    obtain ⟨j, hj, rest, hrest, rfl⟩ := h
    exact .cons hj (ih hrest)

/-- The pairs of a mapping that is rendered, with the rendering of each value beside it. -/
theorem exists_rendered {pairs : List (YamlKey × Yaml)} {js : List (String × Json)}
    (h : renderPairs pairs = some js) :
    ∃ z : List (String × (Yaml × Json)), (∀ t ∈ z, render t.2.1 = some t.2.2) ∧
      (pairs.filterMap fun p => p.1.name.map fun name => (name, p.2)) =
        z.map (Prod.map id Prod.fst) ∧ js = z.map (Prod.map id Prod.snd) := by
  induction pairs generalizing js with
  | nil =>
    cases h
    exact ⟨[], by simp⟩
  | cons p pairs ih =>
    simp only [renderPairs, Option.bind_eq_bind, Option.bind_eq_some_iff, Option.pure_def,
      Option.some.injEq] at h
    obtain ⟨name, hname, j, hj, rest, hrest, rfl⟩ := h
    obtain ⟨z, hz, hpairs, rfl⟩ := ih hrest
    refine ⟨(name, (p.2, j)) :: z, ?_, ?_, rfl⟩
    · intro t ht
      rcases List.mem_cons.mp ht with rfl | ht
      · exact hj
      · exact hz t ht
    · simp [hname, hpairs]

/-- The members of an object are the rendered members of a mapping, one by one. -/
def Rendered (ms : List (String × Yaml)) (js : List (String × Json)) : Prop :=
  List.Forall₂ (fun m m' => m.1 = m'.1 ∧ render m.2 = some m'.2) ms js

/-- **The stored object.** Its members are those of the mapping, in the same order and each with the
rendering of its value. -/
theorem rendered_members {pairs : List (YamlKey × Yaml)} {js : List (String × Json)}
    (h : renderPairs pairs = some js) : Rendered (members pairs) (jsonb js) := by
  obtain ⟨z, hz, hpairs, rfl⟩ := exists_rendered h
  rw [Rendered, members, hpairs, jsonb_map, jsonb_map, List.forall₂_map_left_iff,
    List.forall₂_map_right_iff]
  exact List.forall₂_same.mpr fun t ht => ⟨rfl, hz t (mem_of_mem_jsonb ht)⟩

theorem Rendered.exists_left {ms : List (String × Yaml)} {js : List (String × Json)}
    (h : Rendered ms js) {m' : String × Json} (hm' : m' ∈ js) :
    ∃ m ∈ ms, m.1 = m'.1 ∧ render m.2 = some m'.2 := by
  induction h with
  | nil => cases hm'
  | cons hm _ ih =>
    rcases List.mem_cons.mp hm' with rfl | hm'
    · exact ⟨_, List.mem_cons_self, hm⟩
    · obtain ⟨m, hms, hm⟩ := ih hm'
      exact ⟨m, List.mem_cons_of_mem _ hms, hm⟩

theorem Rendered.exists_right {ms : List (String × Yaml)} {js : List (String × Json)}
    (h : Rendered ms js) {m : String × Yaml} (hm : m ∈ ms) :
    ∃ m' ∈ js, m.1 = m'.1 ∧ render m.2 = some m'.2 := by
  induction h with
  | nil => cases hm
  | cons hm' _ ih =>
    rcases List.mem_cons.mp hm with rfl | hm
    · exact ⟨_, List.mem_cons_self, hm'⟩
    · obtain ⟨m', hjs, hm'⟩ := ih hm
      exact ⟨m', List.mem_cons_of_mem _ hjs, hm'⟩

end Yaml

namespace ManifestYaml

/-- What the database holds of `metadata` or `spec`. The column is declared with texts as keys, so
that any other key fails. -/
def stored (pairs : List (YamlKey × Yaml)) : Option (List (String × Json)) :=
  if pairs.all fun p => p.1 matches .text _ then (Yaml.renderPairs pairs).map jsonb else none

end ManifestYaml

/-- The message of `HeartbeatListener.pushDesiredState`. -/
def desiredState (entity : DeviceManifestEntity) : Json :=
  .obj [("apiVersion", .str entity.apiVersion), ("kind", .str entity.kind),
    ("metadata", .obj entity.metadata), ("spec", .obj entity.spec),
    ("version", .num entity.version 0)]

end EdgeGuardian.Controller
