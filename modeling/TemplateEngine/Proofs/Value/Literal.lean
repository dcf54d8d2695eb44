import TemplateEngine.Proofs.Expr.Phrases
import TemplateEngine.Proofs.Expr.Texts
import TemplateEngine.Value.Equality
import TemplateEngine.Value.Text

/-!
# Literal values and their tokens

A *literal* value is built from the absent value, truth values, integers that have an opposite,
strings and containers of literal values, where the elements of a set and the keys of a dict are
hashable and no two of them equal (`Value.IsLiteral`).  The text that `Value.repr` writes for it
has the tokens `Value.lexemes` (`Value.IsLiteral.lexes_repr`): the escapes of a string are undone,
the digits of an integer are its absolute value, and no token runs into the one behind it.
-/

namespace TemplateEngine

/-- Built from the absent value, truth values, integers other than the least one, and strings.
Items of sets and keys of dicts are hashable and differ from those before them. -/
inductive Value.IsLiteral : Value → Prop where
  | nil : IsLiteral .nil
  | bool (b : Bool) : IsLiteral (.bool b)
  | int {i : Int64} (h : i ≠ Int64.minValue) : IsLiteral (.int i)
  | str (s : String) : IsLiteral (.str s)
  | list {xs : List Value} (items : ∀ x ∈ xs, IsLiteral x) : IsLiteral (.list xs)
  | tuple {xs : List Value} (items : ∀ x ∈ xs, IsLiteral x) : IsLiteral (.tuple xs)
  | set {xs : List Value} (items : ∀ x ∈ xs, IsLiteral x)
      (hashable : ∀ x ∈ xs, x.isHashable = true)
      (distinct : xs.Pairwise fun x y => y.equals x = false) : IsLiteral (.set xs)
  | dict {es : List (Value × Value)} (keys : ∀ e ∈ es, IsLiteral e.1)
      (values : ∀ e ∈ es, IsLiteral e.2) (hashable : ∀ e ∈ es, e.1.isHashable = true)
      (distinct : es.Pairwise fun e f => f.1.equals e.1 = false) : IsLiteral (.dict es)

/-! ### Sets and dicts without equals -/

namespace Value

theorem insertItem_of_forall {xs : List Value} {x : Value}
    (h : ∀ y ∈ xs, x.equals y = false) : insertItem xs x = xs ++ [x] := by
  have hmem : x.memberOf xs = false := by simpa [memberOf] using h
  rw [insertItem, hmem]
  rfl

/-- Items of which none equals an earlier one are all kept, in their order. -/
theorem foldl_insertItem (acc : List Value) {xs : List Value}
    (h : (acc ++ xs).Pairwise fun x y => y.equals x = false) :
    xs.foldl insertItem acc = acc ++ xs := by
  induction xs generalizing acc with
  | nil => simp
  | cons x xs ih =>
    have hx : ∀ y ∈ acc, x.equals y = false := fun y hy =>
      (List.pairwise_append.mp h).2.2 y hy x (by simp)
    rw [List.foldl_cons, insertItem_of_forall hx, ih (acc ++ [x]) (by simpa using h)]
    simp

theorem distinct_of_pairwise {xs : List Value} (h : xs.Pairwise fun x y => y.equals x = false) :
    distinct xs = xs :=
  foldl_insertItem [] h

theorem insertEntry_of_forall {es : List (Value × Value)} {k v : Value}
    (h : ∀ e ∈ es, k.equals e.1 = false) : insertEntry k v es = es ++ [(k, v)] := by
  induction es with
  | nil => rfl
  | cons e es ih =>
    have he : k.equals e.1 = false := h e (by simp)
    rw [insertEntry, he, ih fun f hf => h f (by simp [hf])]
    rfl

/-- Entries of which none has the key of an earlier one are all kept, in their order. -/
theorem insertAll_of_pairwise (es : List (Value × Value)) {fs : List (Value × Value)}
    (h : (es ++ fs).Pairwise fun e f => f.1.equals e.1 = false) : insertAll es fs = es ++ fs := by
  induction fs generalizing es with
  | nil => simp [insertAll]
  | cons f fs ih =>
    have hf : ∀ e ∈ es, f.1.equals e.1 = false := fun e he =>
      (List.pairwise_append.mp h).2.2 e he f (by simp)
    have hrest := ih (es ++ [f]) (by simpa using h)
    rw [insertAll, List.foldl_cons, insertEntry_of_forall hf]
    simpa [insertAll] using hrest

end Value

/-! ### Containers -/

namespace Value

mutual

/-- The tokens of a literal value. -/
def lexemes : Value → List Lexeme
  | .nil => [.word (.name "None")]
  | .bool true => [.word (.name "True")]
  | .bool false => [.word (.name "False")]
  | .int i => if i.toInt < 0 then [.word (.symbol .minus), .int (-i)] else [.int i]
  | .str s => [.str s]
  | .list xs => bracketed .lbracket .rbracket (lexemesAll xs)
  | .tuple [x] =>
    .word (.symbol .lparen) :: (lexemes x ++ [.word (.symbol .comma), .word (.symbol .rparen)])
  | .tuple xs => bracketed .lparen .rparen (lexemesAll xs)
  | .set [] => [.word (.name "set"), .word (.symbol .lparen), .word (.symbol .rparen)]
  | .set xs => bracketed .lbrace .rbrace (lexemesAll xs)
  | .dict es => bracketed .lbrace .rbrace (lexemesEntries es)
  | _ => []

/-- The tokens of each item. -/
def lexemesAll : List Value → List (List Lexeme)
  | [] => []
  | x :: xs => lexemes x :: lexemesAll xs

/-- The tokens of each entry. -/
def lexemesEntries : List (Value × Value) → List (List Lexeme)
  | [] => []
  | (k, v) :: es => (lexemes k ++ .word (.symbol .colon) :: lexemes v) :: lexemesEntries es

end

theorem lexemesAll_eq_map (xs : List Value) : lexemesAll xs = xs.map lexemes := by
  induction xs with
  | nil => rfl
  | cons x xs ih => rw [lexemesAll, ih, List.map_cons]

theorem lexemesEntries_eq_map (es : List (Value × Value)) :
    lexemesEntries es =
      es.map fun e => e.1.lexemes ++ .word (.symbol .colon) :: e.2.lexemes := by
  induction es with
  | nil => rfl
  | cons e es ih => rw [lexemesEntries, ih, List.map_cons]

theorem reprs_eq_map (xs : List Value) : reprs xs = xs.map repr := by
  induction xs with
  | nil => rfl
  | cons x xs ih => rw [reprs, ih, List.map_cons]

theorem reprEntries_eq_map (es : List (Value × Value)) :
    reprEntries es = es.map fun e => e.1.repr ++ ": " ++ e.2.repr := by
  induction es with
  | nil => rfl
  | cons e es ih => rw [reprEntries, ih, List.map_cons]

end Value

namespace Lexes

/-- Texts with commas between them; a comma is a break. -/
theorem separated {texts : List String} {parts : List (List Lexeme)}
    (h : List.Forall₂ (fun s ls => Lexes s.toList ls) texts parts) :
    Lexes (", ".intercalate texts).toList (separated parts) := by
  induction h with
  | nil => exact nil
  | @cons s ls texts parts hs hmore ih =>
    rw [separated_cons]
    cases hmore with
    | nil => simpa [behind] using hs
    | @cons t ms texts parts ht hmore =>
      rw [String.intercalate_cons_cons, behind]
      have hcomma := symbol .comma (blank (c := ' ') (by decide) ih)
      simpa using hs.append (breaks_cons.mpr (by decide)) hcomma

theorem bracketed {o c : Char} {opener closer : Symbol} (ho : opener.Stands o)
    (hc : closer.Stands c) (hb : isBreak c = true) {texts : List String}
    {parts : List (List Lexeme)}
    (h : List.Forall₂ (fun s ls => Lexes s.toList ls) texts parts) :
    Lexes (o :: ((", ".intercalate texts).toList ++ [c])) (bracketed opener closer parts) :=
  symbol ho ((separated h).append (breaks_cons.mpr hb) (symbol hc nil))

end Lexes

namespace Value.IsLiteral

/-- A name is one token. -/
theorem lexes_name {s : String}
    (h : TokenStream.tokens 0 s.toList = .ok [⟨.word (.name s), 0⟩]) :
    Lexes s.toList [.word (.name s)] :=
  Lexes.of_tokens h

theorem lexes_items {xs : List Value} (h : ∀ x ∈ xs, Lexes x.repr.toList x.lexemes) :
    List.Forall₂ (fun s ls => Lexes s.toList ls) (reprs xs) (lexemesAll xs) := by
  rw [reprs_eq_map, lexemesAll_eq_map, List.forall₂_map_left_iff, List.forall₂_map_right_iff,
    List.forall₂_same]
  exact h

theorem lexes_entries {es : List (Value × Value)}
    (hk : ∀ e ∈ es, Lexes e.1.repr.toList e.1.lexemes)
    (hv : ∀ e ∈ es, Lexes e.2.repr.toList e.2.lexemes) :
    List.Forall₂ (fun s ls => Lexes s.toList ls) (reprEntries es) (lexemesEntries es) := by
  rw [reprEntries_eq_map, lexemesEntries_eq_map, List.forall₂_map_left_iff,
    List.forall₂_map_right_iff, List.forall₂_same]
  intro e he
  have hcolon := Lexes.symbol .colon (Lexes.blank (c := ' ') (by decide) (hv e he))
  simpa using (hk e he).append (breaks_cons.mpr (by decide)) hcolon

/-- The digits of a negative integer are its opposite, which the minus in front undoes. -/
theorem lexes_int {i : Int64} (h : i ≠ Int64.minValue) :
    Lexes (Number.writeInt i.toInt).toList (Value.int i).lexemes := by
  rw [lexemes]
  by_cases hneg : i.toInt < 0
  · have habs : (i.toInt.natAbs : Int) = (-i).toInt := by
      rw [Number.toInt_neg h]
      omega
    have hfit : Number.fit? i.toInt.natAbs = some (-i) := habs ▸ Number.fit?_toInt (-i)
    rw [Number.writeInt, String.toList_ofList]
    simpa [hneg] using Lexes.symbol .minus (Lexes.digits hfit)
  · have hi : 0 ≤ i.toInt := by omega
    simpa [hneg] using Lexes.int_append hi ceases_nil Lexes.nil

/-- **A literal value is written as its tokens.** -/
theorem lexes_repr {v : Value} (h : v.IsLiteral) : Lexes v.repr.toList v.lexemes := by
  induction h with
  | nil => exact lexes_name (by decide +kernel)
  | bool b => cases b <;> exact lexes_name (by decide +kernel)
  | int h => exact lexes_int h
  | str s => exact Lexes.string s
  | list items ih =>
    simpa [repr, lexemes] using Lexes.bracketed .lbracket .rbracket (by decide) (lexes_items ih)
  | @tuple xs items ih =>
    match xs with
    | [] => exact Lexes.bracketed .lparen .rparen (by decide) .nil
    | [x] =>
      have hclose := Lexes.symbol .comma (Lexes.symbol .rparen Lexes.nil)
      have hx := ih x (by simp)
      simpa [repr, lexemes] using
        Lexes.symbol .lparen (hx.append (breaks_cons.mpr (by decide)) hclose)
    | x :: y :: more =>
      simpa [repr, lexemes] using Lexes.bracketed .lparen .rparen (by decide) (lexes_items ih)
  | @set xs items hashable distinct ih =>
    cases xs with
    | nil =>
      have hset := lexes_name (s := "set") (by decide +kernel)
      have hcall := Lexes.symbol .lparen (Lexes.symbol .rparen Lexes.nil)
      exact hset.append (breaks_cons.mpr (by decide)) hcall
    | cons x more =>
      simpa [repr, lexemes] using Lexes.bracketed .lbrace .rbrace (by decide) (lexes_items ih)
  | dict keys values hashable distinct ihk ihv =>
    simpa [repr, lexemes] using
      Lexes.bracketed .lbrace .rbrace (by decide) (lexes_entries ihk ihv)

end Value.IsLiteral

end TemplateEngine
