import EdgeGuardian.Lib.KeyedPass

/-!
# The plugins of the reconciler

A plugin takes the specs that it can handle one after the other, and reports one action for each of
them. Between two specs it looks at its context: once that is cancelled, the pass ends with a
skipped action for the spec it has come to.

Source: `agent/internal/reconciler/plugin.go`, `agent/plugins/service/service.go`, lines 64–86,
`agent/plugins/filemanager/filemanager.go`, lines 40–62.

## Main definitions

* `Action`, `ActionType`: what a plugin reports.
* `Action.AccountsFor`: an action for a resource that has been taken.
* `Context`, `Context.reached`: a context, and the specs that a pass comes to before it is
  cancelled.
* `reconcileEach`: the loop of `Reconcile`, the same in both plugins.

## Main results

* `reconcileEach_eq`: a pass is one over the specs it reaches, followed by the skipped action.
-/

namespace EdgeGuardian.Agent.Reconciler

/-- `ActionType`. -/
inductive ActionType
  | create
  | update
  | delete
  | noop
  | skipped
deriving DecidableEq, Repr

/-- `Action`. The error is empty where there is none. -/
structure Action where
  plugin : String
  resource : String
  actionType : ActionType
  description : String
  error : String
deriving DecidableEq, Repr

/-- The action reports no error. -/
def Action.Ok (a : Action) : Prop := a.error = ""

instance (a : Action) : Decidable a.Ok := inferInstanceAs (Decidable (_ = _))

/-- The action is about the resource, and it is skipped only with an error. -/
structure Action.AccountsFor (a : Action) (resource : String) : Prop where
  resource : a.resource = resource
  skipped : a.actionType = .skipped → ¬ a.Ok

/-- A context as the loop sees it: after how many specs it is found cancelled, if it is. -/
abbrev Context := Option ℕ

namespace Context

/-- The specs that the loop comes to before it finds the context cancelled. -/
def reached {ι : Type*} : Context → List ι → List ι
  | none, specs => specs
  | some k, specs => specs.take k

/-- The spec at which the loop finds the context cancelled. -/
def cut {ι : Type*} : Context → List ι → Option ι
  | none, _ => none
  | some k, specs => specs[k]?

/-- The context is not cancelled before the loop is through. -/
def Outlasts {ι : Type*} (ctx : Context) (specs : List ι) : Prop := ctx.cut specs = none

theorem reached_of_outlasts {ι : Type*} {ctx : Context} {specs : List ι}
    (h : ctx.Outlasts specs) : ctx.reached specs = specs := by
  rcases ctx with _ | k
  · rfl
  · exact List.take_of_length_le (List.getElem?_eq_none_iff.mp h)

theorem mem_of_mem_reached {ι : Type*} {ctx : Context} {specs : List ι} {x : ι}
    (h : x ∈ ctx.reached specs) : x ∈ specs := by
  rcases ctx with _ | k
  · exact h
  · exact List.mem_of_mem_take h

theorem nodup_reached {ι κ : Type*} {key : ι → κ} {specs : List ι} (ctx : Context)
    (h : (specs.map key).Nodup) : ((ctx.reached specs).map key).Nodup := by
  rcases ctx with _ | k
  · exact h
  · exact h.sublist ((List.take_sublist k specs).map key)

end Context

/-- The action for the spec at which the context is found cancelled. -/
def contextCancelled (plugin resource : String) : Action where
  plugin := plugin
  resource := resource
  actionType := .skipped
  description := "context cancelled"
  error := ""

section Loop

variable {ι σ : Type*} (plugin : String) (resource : ι → String) (one : ι → σ → Action × σ)

/-- The loop of `Reconcile`. -/
def reconcileEach (ctx : Context) : List ι → σ → List Action × σ
  | [], s => ([], s)
  | spec :: specs, s =>
    if ctx = some 0 then ([contextCancelled plugin (resource spec)], s)
    else
      let (action, s) := one spec s
      let (actions, s) := reconcileEach (ctx.map (· - 1)) specs s
      (action :: actions, s)

/-- A pass takes the specs it reaches, and reports the one at which it is cut. -/
theorem reconcileEach_eq (ctx : Context) (specs : List ι) (s : σ) :
    reconcileEach plugin resource one ctx specs s =
      ((KeyedPass.run one (ctx.reached specs) s).1 ++
          ((ctx.cut specs).map fun spec => contextCancelled plugin (resource spec)).toList,
        (KeyedPass.run one (ctx.reached specs) s).2) := by
  induction specs generalizing ctx s with
  | nil =>
    rcases ctx with _ | k
    · rfl
    · simp [reconcileEach, Context.reached, Context.cut, KeyedPass.run]
  | cons spec specs ih =>
    rcases ctx with _ | _ | k
    · simp [reconcileEach, ih, Context.reached, Context.cut, KeyedPass.run]
    · simp [reconcileEach, Context.reached, Context.cut, KeyedPass.run]
    · simp [reconcileEach, ih, Context.reached, Context.cut, KeyedPass.run]

/-- The actions of the specs that are reached. -/
theorem zip_reconcileEach (ctx : Context) (specs : List ι) (s : σ) :
    (ctx.reached specs).zip (reconcileEach plugin resource one ctx specs s).1 =
      (ctx.reached specs).zip (KeyedPass.run one (ctx.reached specs) s).1 := by
  have hlength := (KeyedPass.length_run one (ctx.reached specs) s).symm
  have hzip (rest : List Action) : (ctx.reached specs ++ []).zip
      ((KeyedPass.run one (ctx.reached specs) s).1 ++ rest) =
        (ctx.reached specs).zip (KeyedPass.run one (ctx.reached specs) s).1 ++ [].zip rest :=
    List.zip_append hlength
  rw [reconcileEach_eq]
  simpa using hzip _

variable {plugin resource one}

/-- A context that outlasts the pass is not seen by it. -/
theorem reconcileEach_of_outlasts {ctx : Context} {specs : List ι} (h : ctx.Outlasts specs)
    (s : σ) : reconcileEach plugin resource one ctx specs s = KeyedPass.run one specs s := by
  rw [reconcileEach_eq, Context.reached_of_outlasts h, h]
  simp

end Loop

end EdgeGuardian.Agent.Reconciler
