import TemplateEngine.Expr.Eval
import TemplateEngine.Proofs.Except

/-!
# Splitting and joining

The parts of a text between the occurrences of a separator hold no separator, and joined with it
they give back the text (`IsSplit`).  The filter `split` and the method of strings find the same
parts, and the filter `join` and the method put them together again (`Expr.eval_join_split`).  At
the empty separator the filter takes a text apart into its characters; the method refuses it.
-/

namespace TemplateEngine

/-! ### Occurrences -/

namespace Text

theorem isPrefixOf_iff_dropPart? {part s : List Char} :
    part.isPrefixOf s = true ↔ (dropPart? part s).isSome = true := by
  rw [List.isPrefixOf_iff_prefix, Option.isSome_iff_exists]
  exact ⟨fun ⟨rest, h⟩ => ⟨rest, dropPart?_eq_some_iff.mpr h.symm⟩,
    fun ⟨rest, h⟩ => ⟨rest, (dropPart?_eq_some_iff.mp h).symm⟩⟩

/-- A text that is not cut holds no separator. -/
theorem occursIn_of_cut?_eq_none {sep s : List Char} (h : cut? sep s = none) :
    occursIn sep s = false := by
  induction s with
  | nil =>
    cases sep with
    | nil => cases h
    | cons => rfl
  | cons c s ih =>
    rw [cut?] at h
    split at h
    · cases h
    · next hnone =>
      have hprefix : sep.isPrefixOf (c :: s) = false := by
        rw [← Bool.not_eq_true, isPrefixOf_iff_dropPart?, hnone]
        simp
      rw [occursIn, hprefix, ih (Option.map_eq_none_iff.mp h), Bool.or_false]

/-- The text in front of the first separator holds none. -/
theorem occursIn_of_cut?_eq_some {sep s before after : List Char} (hsep : sep ≠ [])
    (h : cut? sep s = some (before, after)) : occursIn sep before = false := by
  induction s generalizing before with
  | nil => simp [cut?, hsep] at h
  | cons c s ih =>
    have hwhole := eq_append_of_cut? h
    rw [cut?] at h
    split at h
    · cases h
      simp [occursIn, hsep]
    · next hnone =>
      obtain ⟨⟨before', after'⟩, hcut, he⟩ := Option.map_eq_some_iff.mp h
      cases he
      have hprefix : sep.isPrefixOf (c :: before') = false := by
        rw [← Bool.not_eq_true, List.isPrefixOf_iff_prefix]
        rintro ⟨rest, hrest⟩
        have hsome : dropPart? sep (c :: s) = some (rest ++ sep ++ after) := by
          rw [dropPart?_eq_some_iff, hwhole, ← hrest]
          simp
        rw [hnone] at hsome
        cases hsome
      rw [occursIn, hprefix, ih hcut, Bool.or_false]

/-! ### Parts -/

/-- `parts` are the text `s` taken apart at the separator: joined they give it back, none of them
holds the separator, and at the empty separator every one is a character. -/
structure IsSplit (sep s : List Char) (parts : List (List Char)) : Prop where
  joined : sep.intercalate parts = s
  apart : sep ≠ [] → ∀ p ∈ parts, occursIn sep p = false
  single : sep = [] → ∀ p ∈ parts, p.length = 1

theorem splitOn_ne_nil (c : Char) (more s : List Char) : splitOn c more s ≠ [] := by
  rw [splitOn]
  split <;> simp

theorem isSplit_splitOn (c : Char) (more s : List Char) :
    IsSplit (c :: more) s (splitOn c more s) := by
  have hsep : c :: more ≠ [] := List.cons_ne_nil c more
  fun_induction splitOn c more s with
  | case1 s h =>
    exact ⟨by simp, fun _ => by simpa using occursIn_of_cut?_eq_none h, fun h => absurd h hsep⟩
  | case2 s before after h ih =>
    refine ⟨?_, fun _ => ?_, fun h => absurd h hsep⟩
    · rw [List.intercalate_cons_of_ne_nil (splitOn_ne_nil c more after), ih.joined]
      exact (eq_append_of_cut? h).symm
    · exact List.forall_mem_cons.mpr
        ⟨occursIn_of_cut?_eq_some hsep h, ih.apart hsep⟩

theorem isSplit_characters (s : List Char) : IsSplit [] s (s.map fun c => [c]) where
  joined := by
    induction s with
    | nil => rfl
    | cons c s ih =>
      cases s with
      | nil => rfl
      | cons d s =>
        rw [List.map_cons] at ih
        rw [List.map_cons, List.map_cons, List.intercalate_cons_cons, ih]
        rfl
  apart h := absurd rfl h
  single _ := by simp

/-- The parts of a text at a separator; at the empty one they are the characters. -/
def partsAt (sep s : List Char) : List (List Char) :=
  match sep with
  | [] => s.map fun c => [c]
  | c :: more => splitOn c more s

theorem isSplit_partsAt (sep s : List Char) : IsSplit sep s (partsAt sep s) := by
  cases sep with
  | nil => exact isSplit_characters s
  | cons c more => exact isSplit_splitOn c more s

end Text

/-! ### Filters and methods -/

variable {s sep : String} {parts : List (List Char)}

theorem map_textOf_strings (parts : List (List Char)) :
    (parts.map fun p => Value.str (String.ofList p)).map Filter.textOf =
      parts.map String.ofList := by
  rw [List.map_map]
  rfl

/-- The parts of a text joined as strings. -/
theorem intercalate_ofList (h : Text.IsSplit sep.toList s.toList parts) :
    sep.intercalate (parts.map String.ofList) = s := by
  have htexts : (parts.map String.ofList).map String.toList = parts := by
    simp [Function.comp_def]
  rw [← String.toList_inj, String.toList_intercalate, htexts, h.joined]

namespace Filter

theorem split_eq (s sep : String) :
    split (.str s) [.str sep] = .ok (Method.strings (Text.partsAt sep.toList s.toList)) := by
  have hsplit : split (.str s) [.str sep] =
      match sep.toList with
      | [] => .ok (.list (s.toList.map fun c => .str c.toString))
      | c :: more => .ok (Method.strings (Text.splitOn c more s.toList)) := rfl
  rw [hsplit]
  cases sep.toList with
  | nil => simp [Method.strings, Text.partsAt, Function.comp_def]
  | cons c more => rfl

/-- The filter joins the parts of a text to the text. -/
theorem join_strings (h : Text.IsSplit sep.toList s.toList parts) :
    join (Method.strings parts) [.str sep] = .ok (.str s) := by
  have hjoin : join (Method.strings parts) [.str sep] = .ok (.str (sep.intercalate
      ((parts.map fun p => Value.str (String.ofList p)).map textOf))) := rfl
  rw [hjoin, map_textOf_strings, intercalate_ofList h]

end Filter

namespace Method

/-- The method finds the parts that the filter finds; it refuses the empty separator. -/
theorem apply_split (s : String) (hsep : sep ≠ "") :
    split.apply (.str s) [.str sep] =
      .ok (strings (Text.partsAt sep.toList s.toList)) := by
  have happly : split.apply (.str s) [.str sep] =
      match sep.toList with
      | [] => fail .emptySeparator
      | c :: more => .ok (strings (Text.splitOn c more s.toList)) := rfl
  rw [happly]
  cases h : sep.toList with
  | nil => exact absurd (String.toList_eq_nil_iff.mp h) hsep
  | cons c more => rfl

/-- The method joins the parts of a text to the text. -/
theorem apply_join (h : Text.IsSplit sep.toList s.toList parts) :
    join.apply (.str sep) [strings parts] = .ok (.str s) := by
  have htexts : (parts.map fun p => Value.str (String.ofList p)).mapM (Arguments.str "join") =
      .ok (parts.map String.ofList) := by
    rw [← map_textOf_strings]
    refine mapM_eq_ok fun v hv => ?_
    obtain ⟨p, -, rfl⟩ := List.mem_map.mp hv
    rfl
  have happly : join.apply (.str sep) [strings parts] =
      (parts.map fun p => Value.str (String.ofList p)).mapM (Arguments.str "join") >>= fun texts =>
        .ok (.str (sep.intercalate texts)) := rfl
  rw [happly, htexts, ← intercalate_ofList h]
  rfl

end Method

/-! ### Expressions -/

namespace Expr

variable {host : Host} {scope : Scope} {a b : Expr} {v w : Value}

/-- A filter of the table is applied to a value and one argument. -/
theorem eval_filter_of_get? {name : String} {filter : Filter}
    (hfilter : host.filters.get? name = some filter)
    (ha : ∀ site, a.eval host scope site = .ok v) (hb : ∀ site, b.eval host scope site = .ok w)
    (site : Site) : (Expr.filter a name [b]).eval host scope site = filter v [w] := by
  simp only [eval, evalAll, ha, hb]
  change host.applyFilter scope name v [w] = _
  rw [Host.applyFilter, hfilter]

/-- A method of a string is called with one argument. -/
theorem eval_call_of_method {name text : String} {m : Method} (hm : scope.mode = .python)
    (hmethod : Method.of? (.str text) name = some m)
    (ha : ∀ site, a.eval host scope site = .ok (.str text))
    (hb : ∀ site, b.eval host scope site = .ok w) (site : Site) :
    (Expr.call (.attr a name) [b]).eval host scope site = m.apply (.str text) [w] := by
  have hmember : ∀ site, (Value.str text).member .python site name =
      .ok (.method site (.str text) m) := by
    intro site
    simp only [Value.member, hmethod]
    rfl
  simp only [eval, evalAll, ha, hb, hm]
  change (Value.str text).member .python (0 :: site) name >>= (host.callValue · [w]) = _
  rw [hmember]
  rfl

/-- **Joining undoes splitting.**  A text passed through the filters `split` and `join` with one
separator comes out as it was, and in the python dialect so does the text that the methods take
apart and put together at a separator that is not empty.  Both ways the parts in between are those
of the text at the separator. -/
theorem eval_join_split (hfilters : host.filters = Filter.standard) {s sep : String}
    (ha : ∀ site, a.eval host scope site = .ok (.str s))
    (hb : ∀ site, b.eval host scope site = .ok (.str sep)) :
    ∃ parts, Text.IsSplit sep.toList s.toList parts ∧
      (∀ site, (Expr.filter a "split" [b]).eval host scope site = .ok (Method.strings parts) ∧
        (Expr.filter (.filter a "split" [b]) "join" [b]).eval host scope site = .ok (.str s)) ∧
      (scope.mode = .python → sep ≠ "" → ∀ site,
        (Expr.call (.attr a "split") [b]).eval host scope site = .ok (Method.strings parts) ∧
          (Expr.call (.attr b "join") [.call (.attr a "split") [b]]).eval host scope site =
            .ok (.str s)) := by
  have hsplit := Text.isSplit_partsAt sep.toList s.toList
  refine ⟨_, hsplit, fun site => ?_, fun hm hsep site => ?_⟩
  · have hget : host.filters.get? "split" = some Filter.split := by
      rw [hfilters]
      rfl
    have hget' : host.filters.get? "join" = some Filter.join := by
      rw [hfilters]
      rfl
    have hparts := fun site => (eval_filter_of_get? hget ha hb site).trans (Filter.split_eq s sep)
    exact ⟨hparts site,
      (eval_filter_of_get? hget' hparts hb site).trans (Filter.join_strings hsplit)⟩
  · have hmethod : Method.of? (.str s) "split" = some .split := rfl
    have hmethod' : Method.of? (.str sep) "join" = some .join := rfl
    have hparts := fun site =>
      (eval_call_of_method hm hmethod ha hb site).trans (Method.apply_split s hsep)
    exact ⟨hparts site,
      (eval_call_of_method hm hmethod' hb hparts site).trans (Method.apply_join hsplit)⟩

/-- A separator that overlaps itself. -/
theorem eval_join_split_overlap :
    let host : Host := ⟨Filter.standard, fun _ _ _ => fail .overflow, 1⟩
    let scope := Scope.ofGlobals .python []
    let text := Expr.literal (.str "éaaa")
    let separator := Expr.literal (.str "aa")
    host.filters = Filter.standard ∧
      (∀ site, text.eval host scope site = .ok (.str "éaaa")) ∧
      (∀ site, separator.eval host scope site = .ok (.str "aa")) ∧
      (Expr.filter (.filter text "split" [separator]) "join" [separator]).eval host scope [] =
        .ok (.str "éaaa") ∧
      (Expr.call (.attr separator "join") [.call (.attr text "split") [separator]]).eval host scope
        [] = .ok (.str "éaaa") := by
  intro host scope text separator
  have htext : ∀ site, text.eval host scope site = .ok (.str "éaaa") := fun _ => rfl
  have hseparator : ∀ site, separator.eval host scope site = .ok (.str "aa") := fun _ => rfl
  obtain ⟨parts, -, hfilters, hmethods⟩ := eval_join_split rfl htext hseparator
  exact ⟨rfl, htext, hseparator, (hfilters []).2, (hmethods rfl (by decide) []).2⟩

end Expr

end TemplateEngine
