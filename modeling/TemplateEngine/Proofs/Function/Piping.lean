import TemplateEngine.Expr.Eval
import TemplateEngine.Proofs.Except

/-!
# Values piped into functions

In the python dialect a value can be piped into a function by its name.  The name is looked for
among the filters first, and `len`, `int`, `str` and `abs` are names of standard filters too; the
other functions are found in the scope.  Either way the result is that of a call
(`Expr.eval_filter_of_call`), except that the filter `str` makes the absent an empty text.
-/

namespace TemplateEngine

theorem Builtin.ofName?_name (f : Builtin) : ofName? f.name = some f := by
  cases f <;> decide

/-- A name that no frame binds is that of the built-in function. -/
theorem Scope.get?_builtin {s : Scope} (hm : s.mode = .python) {f : Builtin}
    (hf : ∀ frame ∈ s.frames, frame.get? f.name = none) :
    s.get? f.name = some (.builtin f) := by
  have hnone : (s.frames.findSome? fun frame => frame.get? f.name) = none :=
    List.findSome?_eq_none_iff.mpr hf
  rw [get?, hnone, hm]
  simp [builtin?, Builtin.ofName?_name]

namespace Filter

/-- A name that a function shares with a standard filter. -/
theorem shared_of_get?_standard {f : Builtin} {filter : Filter}
    (h : standard.get? f.name = some filter) : f = .len ∨ f = .int ∨ f = .str ∨ f = .abs := by
  cases f <;> first | (cases h; done) | simp

theorem textOf_of_ne_nil {v : Value} (h : v ≠ .nil) : textOf v = v.display := by
  cases v <;> first | rfl | exact absurd rfl h

/-- Numbers are piped into `abs` as they are. -/
theorem abs_of_absOf {v r : Value} (h : Builtin.absOf v = .ok r) : abs v [] = .ok r := by
  cases v with
  | float x => exact h
  | int i => exact h
  | bool b => exact h
  | _ => cases h

end Filter

/-- A function that succeeds gives the same result to a value piped into it. -/
theorem Host.applyFilter_of_apply {host : Host} (hfilters : host.filters = Filter.standard)
    {scope : Scope} (hm : scope.mode = .python) {f : Builtin}
    (hget : scope.get? f.name = some (.builtin f)) {v r : Value} (h : f.apply [v] = .ok r)
    (hstr : f = .str → v ≠ .nil) : host.applyFilter scope f.name v [] = .ok r := by
  unfold applyFilter
  cases hfilter : host.filters.get? f.name with
  | none =>
    rw [hm, hget]
    exact h
  | some filter =>
    rw [hfilters] at hfilter
    rcases Filter.shared_of_get?_standard hfilter with rfl | rfl | rfl | rfl
    · cases hfilter
      exact h
    · cases hfilter
      obtain ⟨-, -, h⟩ := bind_eq_ok_iff.mp h
      obtain ⟨i, hi, hr⟩ := bind_eq_ok_iff.mp h
      cases hr
      simp only [hi]
      rfl
    · cases hfilter
      cases h
      exact congrArg (fun text => Except.ok (Value.str text)) (Filter.textOf_of_ne_nil (hstr rfl))
    · cases hfilter
      exact Filter.abs_of_absOf h

namespace Expr

/-- **Piping is calling.**  In the python dialect, with the standard filters, a value that is piped
into a built-in function that nothing in scope rebinds has the result that the call has, if the call
succeeds; only the absent piped into `str` is the empty text. -/
theorem eval_filter_of_call {host : Host} (hfilters : host.filters = Filter.standard)
    {scope : Scope} (hm : scope.mode = .python) {f : Builtin}
    (hf : ∀ frame ∈ scope.frames, frame.get? f.name = none) {a : Expr} {v r : Value}
    (ha : ∀ site, a.eval host scope site = .ok v) {site : Site}
    (hcall : (Expr.call (.var f.name) [a]).eval host scope site = .ok r) :
    ((f = .str → v ≠ .nil) → (Expr.filter a f.name []).eval host scope site = .ok r) ∧
      (f = .str → v = .nil → (Expr.filter a f.name []).eval host scope site = .ok (.str "")) := by
  have hget : scope.get? f.name = some (.builtin f) := Scope.get?_builtin hm hf
  have hfilter : (Expr.filter a f.name []).eval host scope site =
      host.applyFilter scope f.name v [] := by
    simp only [eval, evalAll, ha]
    rfl
  have hlookup : scope.lookup f.name = .ok (.builtin f) := by
    unfold Scope.lookup
    rw [hget]
  have happly : f.apply [v] = .ok r := by
    simp only [eval, evalAll, ha, hlookup] at hcall
    exact hcall
  rw [hfilter]
  refine ⟨Host.applyFilter_of_apply hfilters hm hget happly, ?_⟩
  rintro rfl rfl
  unfold Host.applyFilter
  rw [hfilters]
  rfl

/-- The absolute value, which is a filter too, and the largest item, which is not. -/
theorem eval_filter_of_call_abs :
    let host : Host := ⟨Filter.standard, fun _ _ _ => fail .overflow, 1⟩
    (Expr.filter (.var "x") "abs" []).eval host (.ofGlobals .python [("x", .int (-3))]) [] =
        .ok (.int 3) ∧
      (Expr.filter (.var "x") "max" []).eval host
        (.ofGlobals .python [("x", .list [.int 1, .int 2])]) [] = .ok (.int 2) := by
  intro host
  have habs : (Expr.call (.var "abs") [.var "x"]).eval host
      (.ofGlobals .python [("x", .int (-3))]) [] = .ok (.int 3) := rfl
  have hmax : (Expr.call (.var "max") [.var "x"]).eval host
      (.ofGlobals .python [("x", .list [.int 1, .int 2])]) [] = .ok (.int 2) := rfl
  have hpiped := eval_filter_of_call (f := .abs) rfl rfl (by decide) (fun _ => rfl) habs
  have hpiped' := eval_filter_of_call (f := .max) rfl rfl (by decide) (fun _ => rfl) hmax
  exact ⟨hpiped.1 nofun, hpiped'.1 nofun⟩

/-- The absent is an input without text to the filter `str`, and a value with a name to the
function. -/
theorem not_eval_filter_of_call : ¬ ∀ (host : Host) (scope : Scope) (f : Builtin) (a : Expr)
    (v r : Value) (site : Site), host.filters = Filter.standard → scope.mode = .python →
      (∀ frame ∈ scope.frames, frame.get? f.name = none) →
      (∀ site, a.eval host scope site = .ok v) →
      (Expr.call (.var f.name) [a]).eval host scope site = .ok r →
        (Expr.filter a f.name []).eval host scope site = .ok r := by
  intro h
  have hstr := h ⟨Filter.standard, fun _ _ _ => fail .overflow, 1⟩ (.ofGlobals .python []) .str
    (.literal .nil) .nil (.str "None") [] rfl rfl (by decide) (fun _ => rfl) rfl
  have hempty : (Expr.filter (.literal .nil) Builtin.str.name []).eval
      ⟨Filter.standard, fun _ _ _ => fail .overflow, 1⟩ (.ofGlobals .python []) [] =
        .ok (.str "") := rfl
  rw [hempty] at hstr
  exact absurd (Value.str.inj (Except.ok.inj hstr)) (by decide)

end Expr

end TemplateEngine
