import TemplateEngine.Proofs.Expr.Operands
import TemplateEngine.Proofs.Render.Output
import TemplateEngine.Proofs.Value.Literal

/-!
# Literal values through the python dialect

A literal value is written by `Value.repr` as an expression, its *quote* (`Value.quote`): a negative
integer is a minus in front of its opposite, the empty set is a call of `set`, and everything else
is spelled as it is.  The tokens of the value are a phrase of the quote
(`Value.IsLiteral.phrase_quote`), and the quote evaluates to the very value
(`Value.IsLiteral.eval_quote`).  So an output of the written value is read as one expression and
shows the value (`Template.parse_repr`).
-/

namespace TemplateEngine

namespace Value

mutual

/-- The expression that a literal value is written as. -/
def quote : Value → Expr
  | .int i => if i.toInt < 0 then .unary .neg (.literal (.int (-i))) else .literal (.int i)
  | .list xs => .list (quoteAll xs)
  | .tuple xs => .tuple (quoteAll xs)
  | .set [] => .call (.var "set") []
  | .set xs => .set (quoteAll xs)
  | .dict es => .dict (quoteEntries es)
  | v => .literal v

/-- The expressions of the items. -/
def quoteAll : List Value → List Expr
  | [] => []
  | x :: xs => quote x :: quoteAll xs

/-- The expressions of the entries. -/
def quoteEntries : List (Value × Value) → List (Expr × Expr)
  | [] => []
  | (k, v) :: es => (quote k, quote v) :: quoteEntries es

end

theorem quoteAll_eq_map (xs : List Value) : quoteAll xs = xs.map quote := by
  induction xs with
  | nil => rfl
  | cons x xs ih => rw [quoteAll, ih, List.map_cons]

theorem quoteEntries_eq_map (es : List (Value × Value)) :
    quoteEntries es = es.map fun e => (e.1.quote, e.2.quote) := by
  induction es with
  | nil => rfl
  | cons e es ih => rw [quoteEntries, ih, List.map_cons]

namespace IsLiteral

/-! ### Reading -/

theorem phrases_items {xs : List Value} (h : ∀ x ∈ xs, Phrase x.lexemes x.quote) :
    List.Forall₂ Phrase (lexemesAll xs) (quoteAll xs) := by
  rw [lexemesAll_eq_map, quoteAll_eq_map, List.forall₂_map_left_iff, List.forall₂_map_right_iff,
    List.forall₂_same]
  exact h

theorem phrases_entries {es : List (Value × Value)}
    (hk : ∀ e ∈ es, Phrase e.1.lexemes e.1.quote)
    (hv : ∀ e ∈ es, Phrase e.2.lexemes e.2.quote) :
    List.Forall₂ Phrase.Entry (lexemesEntries es) (quoteEntries es) := by
  rw [lexemesEntries_eq_map, quoteEntries_eq_map, List.forall₂_map_left_iff,
    List.forall₂_map_right_iff, List.forall₂_same]
  exact fun e he => ⟨_, _, rfl, hk e he, hv e he⟩

/-- The tokens of a literal value are a phrase. -/
theorem phrase_quote {v : Value} (h : v.IsLiteral) : Phrase v.lexemes v.quote := by
  induction h with
  | nil => exact Phrase.keyword (k := .nil) rfl (by decide)
  | bool b =>
    cases b with
    | false => exact Phrase.keyword (k := .false) rfl (by decide)
    | true => exact Phrase.keyword (k := .true) rfl (by decide)
  | @int i h =>
    rw [lexemes, quote]
    split
    · exact Phrase.neg_int (-i)
    · exact Phrase.int i
  | str s => exact Phrase.str s
  | list items ih => exact Phrase.list (phrases_items ih)
  | @tuple xs items ih =>
    -- a single item is spelled with a comma of its own
    rcases xs with _ | ⟨x, _ | ⟨y, more⟩⟩
    · exact Phrase.tuple .nil (by simp [quoteAll])
    · exact Phrase.tuple_singleton (ih x (by simp))
    · exact Phrase.tuple (phrases_items ih) (by simp [quoteAll])
  | @set xs items hashable distinct ih =>
    cases xs with
    | nil => exact Phrase.call_name rfl rfl
    | cons x xs => exact Phrase.set (phrases_items ih) (by simp [quoteAll])
  | dict keys values hashable distinct ihk ihv => exact Phrase.dict (phrases_entries ihk ihv)

/-- A literal value is written as an expression. -/
theorem parse_repr {v : Value} (h : v.IsLiteral) (base : Nat) :
    Expr.parse .python v.repr base = .ok v.quote := by
  obtain ⟨ts, hts, hl⟩ := h.lexes_repr base
  exact Expr.parse_eq_ok_iff.mpr ⟨ts, hts, hl ▸ h.phrase_quote.spells⟩

/-! ### Evaluation -/

section
variable {host : Host} {scope : Scope}

theorem evalAll_quoteAll {xs : List Value}
    (h : ∀ x ∈ xs, ∀ site, x.quote.eval host scope site = .ok x) (site : Site) (i : Nat) :
    Expr.evalAll host scope site i (quoteAll xs) = .ok xs := by
  induction xs generalizing i with
  | nil => rfl
  | cons x xs ih =>
    have hmore := ih (fun y hy => h y (by simp [hy])) (i + 1)
    exact bind_eq_ok_iff.mpr ⟨x, h x (by simp) _, bind_eq_ok_iff.mpr ⟨xs, hmore, rfl⟩⟩

theorem hashable_of_isHashable {v : Value} (h : v.isHashable = true) : v.hashable = .ok v := by
  rw [hashable, if_pos h]

theorem mapM_hashable {xs : List Value} (h : ∀ x ∈ xs, x.isHashable = true) :
    xs.mapM hashable = .ok xs := by
  rw [mapM_eq_ok fun x hx => hashable_of_isHashable (h x hx), List.map_id']

theorem evalEntries_quoteEntries {es : List (Value × Value)}
    (hk : ∀ e ∈ es, ∀ site, e.1.quote.eval host scope site = .ok e.1)
    (hv : ∀ e ∈ es, ∀ site, e.2.quote.eval host scope site = .ok e.2)
    (hashable : ∀ e ∈ es, e.1.isHashable = true) (site : Site) (i : Nat) :
    Expr.evalEntries host scope site i (quoteEntries es) = .ok es := by
  induction es generalizing i with
  | nil => rfl
  | cons e es ih =>
    have hmore := ih (fun f hf => hk f (by simp [hf])) (fun f hf => hv f (by simp [hf]))
      (fun f hf => hashable f (by simp [hf])) (i + 2)
    refine bind_eq_ok_iff.mpr ⟨e.1, hk e (by simp) _, ?_⟩
    refine bind_eq_ok_iff.mpr ⟨e.1, hashable_of_isHashable (hashable e (by simp)), ?_⟩
    refine bind_eq_ok_iff.mpr ⟨e.2, hv e (by simp) _, ?_⟩
    exact bind_eq_ok_iff.mpr ⟨es, hmore, rfl⟩

/-- The quote of a literal value evaluates to the value where `set` is the built-in function. -/
theorem eval_quote {v : Value} (h : v.IsLiteral)
    (hset : scope.lookup "set" = .ok (.builtin .set)) (site : Site) :
    v.quote.eval host scope site = .ok v := by
  induction h generalizing site with
  | nil => rfl
  | bool b => rfl
  | @int i h =>
    rw [quote]
    split
    -- the minus is evaluated, and its result fits a word again
    · have hneg : -(-i).toInt = i.toInt := by rw [Number.toInt_neg h, Int.neg_neg]
      refine bind_eq_ok_iff.mpr ⟨.int (-i), rfl, ?_⟩
      change ofExact (-(-i).toInt) = _
      rw [ofExact, hneg, Number.fit?_toInt]
    · rfl
  | str s => rfl
  | list items ih => exact bind_eq_ok_iff.mpr ⟨_, evalAll_quoteAll ih site 0, rfl⟩
  | tuple items ih => exact bind_eq_ok_iff.mpr ⟨_, evalAll_quoteAll ih site 0, rfl⟩
  | @set xs items hashable distinct ih =>
    cases xs with
    | nil => exact bind_eq_ok_iff.mpr ⟨.builtin .set, hset, rfl⟩
    | cons x xs =>
      refine bind_eq_ok_iff.mpr ⟨_, evalAll_quoteAll ih site 0, ?_⟩
      refine bind_eq_ok_iff.mpr ⟨_, mapM_hashable hashable, ?_⟩
      -- no item equals an earlier one, so none is dropped
      rw [distinct_of_pairwise distinct]
      rfl
  | @dict es keys values hashable distinct ihk ihv =>
    refine bind_eq_ok_iff.mpr ⟨es, evalEntries_quoteEntries ihk ihv hashable site 0, ?_⟩
    rw [insertAll_of_pairwise [] distinct]
    rfl

end

end IsLiteral

end Value

namespace Template

open Markup

/-- **Literal values pass through the python dialect unchanged.**  The template that outputs a
literal value as it is written is one output of one expression; without variables the expression
evaluates to the very value, and the template writes the value as it is shown. -/
theorem output_repr {v : Value} (h : v.IsLiteral) (registry : Tag.Registry) :
    ∃ x, parse registry .python ("\x7b\x7b " ++ v.repr ++ " \x7d\x7d") = .ok [.output x 0] ∧
      ∀ host : Host,
        (∀ site, x.eval host (.ofGlobals .python []) site = .ok v) ∧
          renderNodes host .python [] [.output x 0] = .ok (v.display, .normal) := by
  have hset : (Scope.ofGlobals .python []).lookup "set" = .ok (.builtin .set) := rfl
  refine ⟨v.quote, parse_output (h.parse_repr 0), fun host => ⟨h.eval_quote hset, ?_⟩⟩
  rw [renderNodes_output, h.eval_quote hset]
  rfl

/-- A dict whose string holds quotes, a backslash, a line break and closing braces, with a negative
integer, a tuple of one item and an empty set inside. -/
theorem output_repr_nested :
    let v : Value := .dict
      [(.str "it's \x7d\x7d \\ \"\n", .list [.int (-5), .tuple [.nil], .set []]),
        (.tuple [.bool true], .set [.int 0, .str "#\x7d"])]
    v.IsLiteral ∧
      ∃ x, parse .standard .python ("\x7b\x7b " ++ v.repr ++ " \x7d\x7d") = .ok [.output x 0] ∧
        ∀ host : Host,
          (∀ site, x.eval host (.ofGlobals .python []) site = .ok v) ∧
            renderNodes host .python [] [.output x 0] = .ok (v.display, .normal) := by
  intro v
  have hlist : (Value.list [.int (-5), .tuple [.nil], .set []]).IsLiteral := by
    refine .list ?_
    simp only [List.forall_mem_cons]
    refine ⟨.int (by decide), .tuple ?_, .set nofun nofun .nil, nofun⟩
    simpa using Value.IsLiteral.nil
  have hset : (Value.set [.int 0, .str "#\x7d"]).IsLiteral := by
    refine .set ?_ (by simp [Value.isHashable]) (by decide +kernel)
    simp only [List.forall_mem_cons]
    exact ⟨.int (by decide), .str _, nofun⟩
  have htuple : (Value.tuple [.bool true]).IsLiteral := .tuple (by simpa using .bool true)
  have h : v.IsLiteral := by
    refine .dict ?_ ?_ (by simp [Value.isHashable]) (by decide +kernel)
    · simp only [List.forall_mem_cons]
      exact ⟨.str _, htuple, nofun⟩
    · simp only [List.forall_mem_cons]
      exact ⟨hlist, hset, nofun⟩
  exact ⟨h, output_repr h .standard⟩

end Template

end TemplateEngine
