import RegionTypes.Proofs.Effect.Instantiation
import RegionTypes.Serial.Region

/-!
# Where region paths without elements come from

A region path should have at least one element.  Nothing in the type `Path` says so: every operation
that makes a path has to see to it.  All of them do but reading, which accepts a record with an empty
list of elements.

* `Path.Filled`, `Effect.Filled`, `Summary.Filled` — no path in it is without elements.
* `Datum`, `Obtained` — what the operations on regions and effects give, in any order and number, when
  certain serial values are read.
* `Path.substParam_filled`, `Path.subst_filled` — substitution keeps paths filled.
* `obtained_paths_filled_iff` — **every path obtained has an element exactly when every value that is
  read spells filled paths only**.
* `obtained_path_without_elements` — a record without elements is read, and the path it gives makes
  others empty.
-/

namespace RegionTypes

/-! ### Paths with an element -/

/-- The path has an element. -/
def Path.Filled (p : Path) : Prop := p.elements ≠ []

/-- The region that the effect touches has an element. -/
def Effect.Filled : Effect → Prop
  | .read p | .write p => p.Filled
  | .var _ => True

/-- The region of each effect has an element. -/
def Summary.Filled (s : Summary) : Prop := ∀ e ∈ s, e.Filled

variable {formals actuals : List Path}

namespace Path

variable {p : Path}

theorem ofElements?_filled {es : List Element} (h : ofElements? es = some p) :
    p.Filled := by
  unfold ofElements? at h
  split at h
  · cases h
  · next hne =>
    cases h
    exact fun hnil => hne (List.isEmpty_iff.2 hnil)

theorem child_filled (p : Path) (e : Element) : (p.child e).Filled :=
  List.concat_ne_nil e p.elements

theorem parent?_filled {q : Path} (h : p.parent? = some q) : q.Filled := by
  unfold parent? at h
  split at h
  · cases h
  · next hlong =>
    cases h
    intro hnil
    have hlength := congrArg List.length hnil
    rw [List.length_dropLast, List.length_nil] at hlength
    omega

/-- What replaces a leading parameter has an element, whatever follows it. -/
theorem substParam_filled {r : Path} (label : String) (hp : p.Filled) (hr : r.Filled) :
    (p.substParam label r).Filled := by
  unfold substParam
  split
  · exact List.append_ne_nil_of_left_ne_nil hr _
  · exact hp

theorem mem_of_actualFor? {label : String} {actual : Path}
    (h : actualFor? label formals actuals = some actual) : actual ∈ actuals := by
  obtain ⟨pair, hpair, rfl⟩ := Option.map_eq_some_iff.1 h
  exact (List.of_mem_zip (List.mem_of_find?_eq_some hpair)).2

theorem subst_filled (hp : p.Filled) (hactuals : ∀ q ∈ actuals, q.Filled) :
    (p.subst formals actuals).Filled := by
  unfold subst
  split
  · exact hp
  · next label hlead =>
    split
    · exact hp
    · next actual hactual =>
      exact substParam_filled label hp (hactuals actual (mem_of_actualFor? hactual))

end Path

variable {e : Effect}

theorem Effect.substRegions_filled (he : e.Filled) (hactuals : ∀ q ∈ actuals, q.Filled) :
    (e.substRegions formals actuals).Filled := by
  cases e with
  | read | write => exact Path.subst_filled he hactuals
  | var => exact he

namespace Summary

variable {s : Summary}

theorem insert_filled (hs : s.Filled) (he : e.Filled) :
    (s.insert e).Filled := by
  intro f hf
  rcases mem_insert.1 hf with rfl | hf
  · exact he
  · exact hs f hf

theorem union_filled {t : Summary} (hs : s.Filled) (ht : t.Filled) : (s.union t).Filled := by
  intro e he
  rcases mem_union.1 he with he | he
  · exact hs e he
  · exact ht e he

theorem substRegions_filled (hs : s.Filled) (hactuals : ∀ q ∈ actuals, q.Filled) :
    (s.substRegions formals actuals).Filled := by
  intro e he
  obtain ⟨f, hf, rfl⟩ := mem_substRegions.1 he
  exact Effect.substRegions_filled (hs f hf) hactuals

theorem substVar_filled {r : Summary} (label : String) (hs : s.Filled) (hr : r.Filled) :
    (s.substVar label r).Filled := by
  intro e he
  rcases mem_substVar.1 he with ⟨he, -⟩ | ⟨-, he⟩
  · exact hs e he
  · exact hr e he

end Summary

/-! ### What the operations give -/

/-- A value that the operations on regions and effects work with. -/
inductive Datum where
  | path (p : Path)
  | effect (e : Effect)
  | summary (s : Summary)

/-- No path in it is without elements. -/
def Datum.Filled : Datum → Prop
  | .path p => p.Filled
  | .effect e => e.Filled
  | .summary s => s.Filled

open Serial in
/-- What finitely many operations give, when the serial values that are read are among `data`. -/
inductive Obtained (data : Value → Prop) : Datum → Prop
  | root : Obtained data (.path .root)
  | omitted : Obtained data (.path default)
  | ofElements {es : List Element} {p : Path} (h : Path.ofElements? es = some p) :
    Obtained data (.path p)
  | param (label : String) : Obtained data (.path (.param label))
  | named (label : String) : Obtained data (.path (.named label))
  | child {p : Path} (hp : Obtained data (.path p)) (e : Element) : Obtained data (.path (p.child e))
  | parent {p q : Path} (hp : Obtained data (.path p)) (h : p.parent? = some q) :
    Obtained data (.path q)
  | substParam {p r : Path} (hp : Obtained data (.path p)) (hr : Obtained data (.path r))
    (label : String) : Obtained data (.path (p.substParam label r))
  | subst {p : Path} {formals actuals : List Path} (hp : Obtained data (.path p))
    (hformals : ∀ q ∈ formals, Obtained data (.path q))
    (hactuals : ∀ q ∈ actuals, Obtained data (.path q)) :
    Obtained data (.path (p.subst formals actuals))
  | reads {p : Path} (hp : Obtained data (.path p)) : Obtained data (.effect (.read p))
  | writes {p : Path} (hp : Obtained data (.path p)) : Obtained data (.effect (.write p))
  | var (label : String) : Obtained data (.effect (.var label))
  | regionRead {p : Path} (he : Obtained data (.effect (.read p))) : Obtained data (.path p)
  | regionWritten {p : Path} (he : Obtained data (.effect (.write p))) : Obtained data (.path p)
  | pure : Obtained data (.summary .pure)
  | single {e : Effect} (he : Obtained data (.effect e)) : Obtained data (.summary (.single e))
  | ofVar (label : String) : Obtained data (.summary (.ofVar label))
  | insert {s : Summary} {e : Effect} (hs : Obtained data (.summary s))
    (he : Obtained data (.effect e)) : Obtained data (.summary (s.insert e))
  | ofList {es : List Effect} (h : ∀ e ∈ es, Obtained data (.effect e)) :
    Obtained data (.summary (.ofList es))
  | union {s t : Summary} (hs : Obtained data (.summary s)) (ht : Obtained data (.summary t)) :
    Obtained data (.summary (s.union t))
  | substRegions {s : Summary} {formals actuals : List Path} (hs : Obtained data (.summary s))
    (hformals : ∀ q ∈ formals, Obtained data (.path q))
    (hactuals : ∀ q ∈ actuals, Obtained data (.path q)) :
    Obtained data (.summary (s.substRegions formals actuals))
  | substVar {s r : Summary} (hs : Obtained data (.summary s)) (hr : Obtained data (.summary r))
    (label : String) : Obtained data (.summary (s.substVar label r))
  | member {s : Summary} {e : Effect} (hs : Obtained data (.summary s)) (h : e ∈ s) :
    Obtained data (.effect e)
  | path? {v : Value} {p : Path} (hv : data v) (h : path? v = some p) : Obtained data (.path p)
  | effect? {v : Value} {e : Effect} (hv : data v) (h : effect? v = some e) :
    Obtained data (.effect e)
  | summary? {v : Value} {s : Summary} (hv : data v) (h : summary? v = some s) :
    Obtained data (.summary s)

/-- Whatever a serial value is read as, no path in it is without elements. -/
structure Serial.ReadsFilled (v : Value) : Prop where
  path {p : Path} (h : path? v = some p) : p.Filled
  effect {e : Effect} (h : effect? v = some e) : e.Filled
  summary {s : Summary} (h : summary? v = some s) : s.Filled

namespace Obtained

variable {data : Serial.Value → Prop}

/-- The step of every operation: what it is given is filled, so is what it gives. -/
theorem filled (hdata : ∀ v, data v → Serial.ReadsFilled v) {d : Datum} (h : Obtained data d) :
    d.Filled := by
  induction h with
  | root | omitted | param => exact List.cons_ne_nil _ _
  | ofElements h => exact Path.ofElements?_filled h
  | named | child => exact Path.child_filled _ _
  | parent _ h => exact Path.parent?_filled h
  | substParam _ _ label hp hr => exact Path.substParam_filled label hp hr
  | subst _ _ _ hp _ hactuals => exact Path.subst_filled hp hactuals
  | reads _ hp | writes _ hp => exact hp
  | var => trivial
  | regionRead _ he | regionWritten _ he => exact he
  | pure => exact fun e he => absurd he Summary.not_mem_pure
  | single _ he => exact Summary.insert_filled (fun e he => absurd he Summary.not_mem_pure) he
  | ofVar => exact Summary.insert_filled (fun e he => absurd he Summary.not_mem_pure) trivial
  | insert _ _ hs he => exact Summary.insert_filled hs he
  | ofList _ h => exact fun e he => h e (Summary.mem_ofList.1 he)
  | union _ _ hs ht => exact Summary.union_filled hs ht
  | substRegions _ _ _ hs _ hactuals => exact Summary.substRegions_filled hs hactuals
  | substVar _ _ label hs hr => exact Summary.substVar_filled label hs hr
  | member _ h hs => exact hs _ h
  | path? hv h => exact (hdata _ hv).path h
  | effect? hv h => exact (hdata _ hv).effect h
  | summary? hv h => exact (hdata _ hv).summary h

theorem effect_filled (hpaths : ∀ p, Obtained data (.path p) → p.Filled) (he : Obtained data (.effect e)) :
    e.Filled := by
  cases e with
  | read p => exact hpaths p he.regionRead
  | write p => exact hpaths p he.regionWritten
  | var => trivial

end Obtained

/-- **Which paths are never empty.**  All paths that the operations give have an element exactly when
whatever is read has paths with elements only; without reading, all of them have. -/
theorem obtained_paths_filled_iff (data : Serial.Value → Prop) :
    (∀ p, Obtained data (.path p) → p.elements ≠ []) ↔ ∀ v, data v → Serial.ReadsFilled v := by
  constructor
  · intro hpaths v hv
    refine ⟨fun h => hpaths _ (.path? hv h), fun h => ?_, fun h e he => ?_⟩
    · exact Obtained.effect_filled hpaths (.effect? hv h)
    · exact Obtained.effect_filled hpaths ((Obtained.summary? hv h).member he)
  · intro hdata p hp
    exact Obtained.filled hdata hp

/-- A path read from a record that has elements, below it and in place of a parameter. -/
theorem obtained_paths_filled_iff_record :
    let v : Serial.Value := .object [("elements", .list [.object [("Param", .text "P")]])]
    (∀ w, w = v → Serial.ReadsFilled w) ∧
    Obtained (· = v) (.path ((Path.param "P").substParam "P" (Path.param "P"))) ∧
    ((Path.param "P").substParam "P" (Path.param "P")).elements ≠ [] := by
  intro v
  have hdata (w) (hw : w = v) : Serial.ReadsFilled w := by
    subst hw
    refine ⟨fun h => ?_, fun h => ?_, fun h => ?_⟩ <;> cases h
    exact List.cons_ne_nil _ _
  have hread : Obtained (· = v) (.path (.param "P")) := .path? rfl rfl
  exact ⟨hdata, hread.substParam hread "P",
    (obtained_paths_filled_iff (· = v)).2 hdata _ (hread.substParam hread "P")⟩

/-- A record without elements is read, and so is an effect on such a region; put in place of a
parameter, what was read makes an empty path of one that had an element. -/
theorem obtained_path_without_elements :
    let v : Serial.Value := .object [("elements", .list [])]
    let w : Serial.Value := .object [("set", .list [.object [("Read", v)]])]
    Serial.path? v = some ⟨[]⟩ ∧
    Serial.summary? w = some (.single (.read ⟨[]⟩)) ∧
    (Path.param "P").substParam "P" ⟨[]⟩ = ⟨[]⟩ ∧
    Obtained (· = v) (.path ((Path.param "P").substParam "P" ⟨[]⟩)) ∧
    Obtained (· = w) (.path ⟨[]⟩) := by
  intro v w
  have hempty : Obtained (· = v) (.path ⟨[]⟩) := .path? rfl rfl
  have hsummary : Obtained (· = w) (.summary (.single (.read ⟨[]⟩))) := .summary? rfl rfl
  refine ⟨rfl, rfl, rfl, (Obtained.param "P").substParam hempty "P", ?_⟩
  exact (hsummary.member (Summary.mem_insert.2 (.inl rfl))).regionRead

end RegionTypes
