import TemplateEngine.Expr.Eval

/-!
# What an expression reads of a scope

Evaluation asks a scope for its dialect and for the values of names, and for nothing else: how the
names are spread over frames, the counters and the clock do not matter (`Expr.eval_congr`).
-/

namespace TemplateEngine

/-- The scopes are of one dialect and have the same values under all names. -/
structure Scope.Alike (s t : Scope) : Prop where
  mode : s.mode = t.mode
  get? : s.get? = t.get?

theorem Scope.Alike.lookup {s t : Scope} (h : s.Alike t) (name : String) :
    s.lookup name = t.lookup name := by
  unfold Scope.lookup
  rw [h.get?]

theorem Scope.Alike.applyFilter {s t : Scope} (h : s.Alike t) (host : Host) (name : String)
    (value : Value) (args : List Value) :
    host.applyFilter s name value args = host.applyFilter t name value args := by
  unfold Host.applyFilter
  rw [h.mode, h.get?]

namespace Expr

variable (host : Host) {s t : Scope}

mutual

/-- An expression has the same value in scopes that are alike. -/
theorem eval_congr (h : s.Alike t) : ∀ (e : Expr) (site : Site),
    e.eval host s site = e.eval host t site
  | .literal _, _ => by simp only [eval]
  | .list items, site => by simp only [eval, evalAll_congr h items]
  | .tuple items, site => by simp only [eval, evalAll_congr h items]
  | .set items, site => by simp only [eval, evalAll_congr h items]
  | .dict entries, site => by simp only [eval, evalEntries_congr h entries]
  | .range first last, site => by simp only [eval, eval_congr h first, eval_congr h last]
  | .empty, _ => by simp only [eval]
  | .var name, _ => by simp only [eval, h.lookup]
  | .attr base name, site => by simp only [eval, eval_congr h base, h.mode]
  | .index base key, site => by simp only [eval, eval_congr h base, eval_congr h key]
  | .slice base start stop step, site => by
    simp only [eval, eval_congr h base, evalBound_congr h start, evalBound_congr h stop,
      evalBound_congr h step]
  | .call callee args, site => by simp only [eval, eval_congr h callee, evalAll_congr h args]
  | .unary op operand, site => by simp only [eval, eval_congr h operand, h.mode]
  | .binary op left right, site => by
    simp only [eval, eval_congr h left, eval_congr h right, h.mode]
  | .ternary cond yes no, site => by
    simp only [eval, eval_congr h cond, eval_congr h yes, eval_congr h no, h.mode]
  | .filter value name args, site => by
    simp only [eval, eval_congr h value, evalAll_congr h args, h.applyFilter]

theorem evalAll_congr (h : s.Alike t) : ∀ (es : List Expr) (site : Site) (i : Nat),
    evalAll host s site i es = evalAll host t site i es
  | [], _, _ => by simp only [evalAll]
  | e :: es, site, i => by simp only [evalAll, eval_congr h e, evalAll_congr h es]

theorem evalEntries_congr (h : s.Alike t) :
    ∀ (entries : List (Expr × Expr)) (site : Site) (i : Nat), evalEntries host s site i entries =
      evalEntries host t site i entries
  | [], _, _ => by simp only [evalEntries]
  | (k, v) :: entries, site, i => by
    simp only [evalEntries, eval_congr h k, eval_congr h v, evalEntries_congr h entries]

theorem evalBound_congr (h : s.Alike t) : ∀ (bound : Option Expr) (site : Site),
    evalBound host s site bound = evalBound host t site bound
  | none, _ => by simp only [evalBound]
  | some e, site => by simp only [evalBound, eval_congr h e]

end

end Expr

end TemplateEngine
