import TemplateEngine.Proofs.Markup.Bindings
import TemplateEngine.Proofs.Render.Turns
import TemplateEngine.Proofs.Scope.Lexical
import TemplateEngine.Template

/-!
# Names that read back

What `assign`, `capture` or a loop binds to a name is written by an output of the name behind the
tag, or in the loop, unless the name is a keyword (`reads_back`).  In the turns of a loop the place
of the turn hides a target of its own name.
-/

namespace TemplateEngine

/-- A string is shown without quotes in both dialects. -/
theorem Value.text_str (mode : Mode) (s : String) : (Value.str s).text mode = s := by
  cases mode <;> simp [text, plain, display]

namespace Markup
open Render Tag

/-! ### What nodes write -/

/-- The nodes write the text and nothing else, and end without a signal. -/
def Writes (host : Host) (s : RenderState) (nodes : List Node) (text : String) : Prop :=
  ∃ scope, (runNodes nodes).runFrom host s = (.ok .normal, ⟨scope, s.out ++ text⟩)

section
variable {host : Host} {s t : RenderState} {head : Head} {n : String} {x : Expr} {v : Value}

/-- A node that ends without a signal, and the nodes behind it. -/
theorem runFrom_cons {node : Node} (h : node.run.runFrom host s = (.ok .normal, t))
    (nodes : List Node) :
    (runNodes (node :: nodes)).runFrom host s = (runNodes nodes).runFrom host t := by
  rw [runNodes, andThen, runFrom_bind, h]

theorem runFrom_output (h : x.eval host s.scope [s.scope.clock] = .ok v) (offset : Nat) :
    (Node.output x offset).run.runFrom host s =
      (.ok .normal, { s with out := s.out ++ v.text s.scope.mode }) := by
  rw [Node.run, runFrom_bind, runFrom_located, runFrom_value, h]
  rfl

/-- A bound name in an output. -/
theorem runFrom_variable (h : s.scope.get? n = some v) (offset : Nat) :
    (Node.output (.var n) offset).run.runFrom host s =
      (.ok .normal, { s with out := s.out ++ v.text s.scope.mode }) := by
  refine runFrom_output ?_ offset
  rw [Expr.eval, Scope.lookup, h]

theorem runFrom_assign (hb : head.descriptor.behavior = .assign) (hargs : head.args = .assign n x)
    (h : x.eval host s.scope [s.scope.clock] = .ok v) :
    (Node.tag head [] []).run.runFrom host s =
      (.ok .normal, { s with scope := s.scope.tick.assign n v }) := by
  rw [Node.run, Head.run, runFrom_located, hb, hargs]
  simp only [Behavior.run, runAssign, lastingValue, runFrom_bind, runFrom_value, h]
  rfl

/-- A text without markup writes itself. -/
theorem runFrom_textNodes (cs : List Char) :
    (runNodes (textNodes cs)).runFrom host s =
      (.ok .normal, { s with out := s.out ++ String.ofList cs }) := by
  cases cs with
  | nil =>
    rw [String.ofList_nil, String.append_empty]
    rfl
  | cons c cs => exact runFrom_cons rfl []

theorem runFrom_capture (hb : head.descriptor.behavior = .capture) (hargs : head.args = .varName n)
    (t : String) :
    (Node.tag head (textNodes t.toList) []).run.runFrom host s =
      (.ok .normal, { s with scope := s.scope.assign n (.str t) }) := by
  have hblock : (framed (runNodes (textNodes t.toList))).runFrom host { s with out := "" } =
      (.ok .normal, { s with out := t }) := by
    unfold framed
    rw [runFrom_ofRun, runFrom_textNodes, String.ofList_toList]
    simp [Scope.push, Scope.pop]
  have haside : (aside (framed (runNodes (textNodes t.toList)))).runFrom host s =
      (.ok (.normal, t), s) := by
    unfold aside
    rw [runFrom_ofRun, hblock]
    rfl
  rw [Node.run, Head.run, runFrom_located, hb, hargs]
  simp only [Behavior.run, runCapture, View.varName, View.block, pure_bind, runFrom_bind, haside]
  rfl

/-! ### What a loop writes -/

/-- What a name shows in a turn of a loop over it: the item, unless the place of the turn is bound
over it. -/
def turnValue (mode : Mode) (n : String) (length index : Nat) (item : Value) : Value :=
  if n = loopInfoName mode then loopInfo index length else item

theorem runFrom_forTurn_output {mode : Mode} (hm : s.scope.mode = mode)
    (length index offset : Nat) (item : Value) :
    (forTurn [n] (loopInfoName mode) length (runNodes [.output (.var n) offset]) index
        item).runFrom host s =
      (.ok .normal, { s with out := s.out ++ (turnValue mode n length index item).text mode }) := by
  let shown := turnValue mode n length index item
  let turn : RenderState := { s with
    scope := (s.scope.push.setLocal n item).setLocal (loopInfoName mode) (loopInfo index length) }
  have hget : turn.scope.get? n = some shown := by
    have hframe : ((Frame.insert [] n item).insert (loopInfoName mode)
        (loopInfo index length)).get? n = some shown := by
      rw [Frame.get?_insert, Frame.get?_insert, if_pos rfl]
      exact (apply_ite some ..).symm
    simp [turn, Scope.get?, Scope.frames, Scope.setLocal, Scope.push, hframe]
  have hbody : (runNodes [.output (.var n) offset]).runFrom host turn =
      (.ok .normal, { turn with out := turn.out ++ shown.text turn.scope.mode }) :=
    runFrom_cons (runFrom_variable hget offset) []
  have hturn : (forTurn [n] (loopInfoName mode) length (runNodes [.output (.var n) offset]) index
      item).runFrom host s =
        let ended := (runNodes [.output (.var n) offset]).runFrom host turn
        (ended.1, { ended.2 with scope := ended.2.scope.pop }) := rfl
  subst hm
  rw [hturn, hbody]
  rfl

/-- The turns write what they show in their order. -/
theorem runFrom_forTurns_output {mode : Mode} (hm : s.scope.mode = mode)
    (length index offset : Nat) (items : List Value) :
    (forTurns [n] (loopInfoName mode) length (runNodes [.output (.var n) offset]) index
        items).runFrom host s =
      (.ok false, { s with out := s.out ++ String.join (items.mapIdx fun i item =>
        (turnValue mode n length (index + i) item).text mode) }) := by
  induction items generalizing index s with
  | nil =>
    rw [List.mapIdx_nil, String.join_nil, String.append_empty]
    rfl
  | cons item items ih =>
    let t : RenderState :=
      { s with out := s.out ++ (turnValue mode n length index item).text mode }
    have hrest := ih (s := t) hm (index + 1)
    rw [forTurns_cons, runFrom_bind, runFrom_forTurn_output hm]
    refine hrest.trans ?_
    rw [List.mapIdx_cons, String.join_cons, String.append_assoc]
    simp only [Nat.add_assoc, Nat.add_comm 1, Nat.add_zero]
    rfl

theorem runFrom_for {mode : Mode} (hm : s.scope.mode = mode) {items : List Value} {offset : Nat}
    (hb : head.descriptor.behavior = .forLoop)
    (hargs : head.args = .forLoop ⟨[n], x, none, none, false⟩)
    (h : x.eval host s.scope [s.scope.clock] = .ok (.list items)) :
    (Node.tag head [.output (.var n) offset] []).run.runFrom host s =
      (.ok .normal, ⟨s.scope.tick, s.out ++ String.join (items.mapIdx fun i item =>
        (turnValue mode n items.length i item).text mode)⟩) := by
  let t : RenderState := { s with scope := s.scope.tick }
  have hitems : (loopItems ⟨[n], x, none, none, false⟩).runFrom host s = (.ok items, t) := by
    simp only [loopItems, lastingValue, runFrom_bind, runFrom_value, h]
    rfl
  have hmode : Render.mode.runFrom host t = (.ok mode, t) := by
    rw [← hm]
    rfl
  have hturns : (forTurns [n] (loopInfoName mode) items.length (runNodes [.output (.var n) offset])
      0 items).runFrom host t = _ := runFrom_forTurns_output (s := t) hm items.length 0 offset items
  rw [Node.run, Head.run, runFrom_located, hb, hargs]
  simp only [Behavior.run, runFor, runFrom_bind, hitems, hmode, clauseViews, runElse, ite_self]
  simp only [hturns, Nat.zero_add]
  rfl

end

/-! ### Reading back -/

variable {mode : Mode} {n : String}

/-- An output of the name writes what has been assigned to the name. -/
def AssignsBack (mode : Mode) (n : String) : Prop :=
  ∀ e x, Expr.parse mode e 0 = .ok x →
    ∃ nodes, parse .standard mode (assignOutput n e) = .ok nodes ∧
      ∀ host s v, s.scope.mode = mode → x.eval host s.scope [s.scope.clock] = .ok v →
        Writes host s nodes (v.text mode)

/-- It writes the text that has been captured. -/
def CapturesBack (mode : Mode) (n : String) : Prop :=
  ∀ t, '\x7b' ∉ t.toList →
    ∃ nodes, parse .standard mode (captureOutput n t) = .ok nodes ∧
      ∀ host s, s.scope.mode = mode → Writes host s nodes t

/-- It writes the item in each turn of a loop. -/
def LoopsBack (mode : Mode) (n : String) : Prop :=
  ∀ e x, Expr.parse mode e 0 = .ok x →
    ∃ nodes, parse .standard mode (loopOutput n e) = .ok nodes ∧
      ∀ host s items, s.scope.mode = mode →
        x.eval host s.scope [s.scope.clock] = .ok (.list items) →
        Writes host s nodes (String.join (items.map (Value.text mode)))

/-- It writes the place of each turn of a loop instead. -/
def LoopsOverPlaces (mode : Mode) (n : String) : Prop :=
  ∀ e x, Expr.parse mode e 0 = .ok x →
    ∃ nodes, parse .standard mode (loopOutput n e) = .ok nodes ∧
      ∀ host s items, s.scope.mode = mode →
        x.eval host s.scope [s.scope.clock] = .ok (.list items) →
        Writes host s nodes (String.join
          ((List.range items.length).map fun i => (loopInfo i items.length).text mode))

section
variable (hn : mode.grammar.IsTarget n) (hk : mode.grammar.keywords.lookup n = none)

include hn hk

theorem assignsBack_of_not_keyword : AssignsBack mode n := by
  intro e x hx
  obtain ⟨head, offset, hb, hargs, hp⟩ := parse_assignOutput hn hk hx
  refine ⟨_, hp, fun host s v hmode hv => ?_⟩
  let t : RenderState := { s with scope := s.scope.tick.assign n v }
  have hget : t.scope.get? n = some v := by rw [Scope.get?_assign, if_pos rfl]
  have hmode' : t.scope.mode = mode := (s.scope.tick.mode_after (.assign n v)).trans hmode
  refine ⟨t.scope, (runFrom_cons (runFrom_assign hb hargs hv) _).trans ?_⟩
  rw [runFrom_cons (runFrom_variable hget offset) [], hmode']
  rfl

theorem capturesBack_of_not_keyword : CapturesBack mode n := by
  intro text ht
  obtain ⟨head, offset, hb, hargs, hp⟩ := parse_captureOutput hn hk ht
  refine ⟨_, hp, fun host s hmode => ?_⟩
  let t : RenderState := { s with scope := s.scope.assign n (.str text) }
  have hget : t.scope.get? n = some (.str text) := by rw [Scope.get?_assign, if_pos rfl]
  refine ⟨t.scope, (runFrom_cons (runFrom_capture hb hargs text) _).trans ?_⟩
  rw [runFrom_cons (runFrom_variable hget offset) [], Value.text_str]
  rfl

/-- A loop writes what its turns show. -/
theorem loops_of_not_keyword {e : String} {x : Expr} (hx : Expr.parse mode e 0 = .ok x) :
    ∃ nodes, parse .standard mode (loopOutput n e) = .ok nodes ∧
      ∀ host s items, s.scope.mode = mode →
        x.eval host s.scope [s.scope.clock] = .ok (.list items) →
        Writes host s nodes (String.join (items.mapIdx fun i item =>
          (turnValue mode n items.length i item).text mode)) := by
  obtain ⟨head, offset, hb, hargs, hp⟩ := parse_loopOutput hn hk hx
  exact ⟨_, hp, fun host s items hmode hv =>
    ⟨s.scope.tick, runFrom_cons (runFrom_for hmode hb hargs hv) []⟩⟩

theorem loopsBack_of_ne (hi : n ≠ loopInfoName mode) : LoopsBack mode n := by
  intro e x hx
  obtain ⟨nodes, hp, hw⟩ := loops_of_not_keyword hn hk hx
  refine ⟨nodes, hp, fun host s items hmode hv => ?_⟩
  have hitems : (items.mapIdx fun i item => (turnValue mode n items.length i item).text mode) =
      items.map (Value.text mode) :=
    List.ext_getElem (by simp) (by simp [turnValue, hi])
  exact hitems ▸ hw host s items hmode hv

theorem loopsOverPlaces_of_eq (hi : n = loopInfoName mode) : LoopsOverPlaces mode n := by
  intro e x hx
  obtain ⟨nodes, hp, hw⟩ := loops_of_not_keyword hn hk hx
  refine ⟨nodes, hp, fun host s items hmode hv => ?_⟩
  have hplaces : (items.mapIdx fun i item => (turnValue mode n items.length i item).text mode) =
      (List.range items.length).map fun i => (loopInfo i items.length).text mode :=
    List.ext_getElem (by simp) (by simp [turnValue, hi])
  exact hplaces ▸ hw host s items hmode hv

end

/-! ### Templates on their own -/

/-- What a template writes on a host without functions, if it ends without a signal. -/
def written (mode : Mode) (source : String) : Option String :=
  match parse .standard mode source with
  | .ok nodes =>
    match Template.renderNodes ⟨Filter.standard, fun _ _ _ => fail .overflow, 1⟩ mode [] nodes with
    | .ok (text, .normal) => some text
    | _ => none
  | .error _ => none

theorem written_eq_some {source text : String} {nodes : List Node}
    (hp : parse .standard mode source = .ok nodes)
    (hw : ∀ host, Writes host ⟨.ofGlobals mode [], ""⟩ nodes text) :
    written mode source = some text := by
  obtain ⟨scope, h⟩ := hw ⟨Filter.standard, fun _ _ _ => fail .overflow, 1⟩
  rw [written, hp]
  dsimp only [Template.renderNodes]
  rw [h]
  simp [Except.map]

theorem AssignsBack.written_eq (h : AssignsBack mode n) :
    written mode (assignOutput n "1") = some "1" := by
  have hx : Expr.parse mode "1" 0 = .ok (.literal (.int 1)) := by
    cases mode <;> with_unfolding_all rfl
  have htext : Value.text mode (.int 1) = "1" := by cases mode <;> with_unfolding_all rfl
  obtain ⟨nodes, hp, hw⟩ := h "1" _ hx
  exact written_eq_some hp fun host => htext ▸ hw host _ (.int 1) rfl rfl

theorem CapturesBack.written_eq (h : CapturesBack mode n) :
    written mode (captureOutput n "t") = some "t" := by
  obtain ⟨nodes, hp, hw⟩ := h "t" (by decide)
  exact written_eq_some hp fun host => hw host _ rfl

theorem LoopsBack.written_eq (h : LoopsBack mode n) :
    written mode (loopOutput n "[1]") = some "1" := by
  have hx : Expr.parse mode "[1]" 0 = .ok (.list [.literal (.int 1)]) := by
    cases mode <;> with_unfolding_all rfl
  have htext : String.join ([.int 1].map (Value.text mode)) = "1" := by
    cases mode <;> with_unfolding_all rfl
  obtain ⟨nodes, hp, hw⟩ := h "[1]" _ hx
  exact written_eq_some hp fun host => htext ▸ hw host _ [.int 1] rfl (by with_unfolding_all rfl)

/-! ### Which names read back -/

/-- **Names read back.**  Whatever name the readers of targets take in a dialect, if it is no
keyword of it: an output of the name writes the text of the value that has been assigned to it, and
the text that has been captured.  In the turns of a loop over the name it writes the items, unless
the dialect has that name for the place of a turn: then it writes the places. -/
theorem reads_back (hn : mode.grammar.IsTarget n) (hk : mode.grammar.keywords.lookup n = none) :
    AssignsBack mode n ∧ CapturesBack mode n ∧ (n ≠ loopInfoName mode → LoopsBack mode n) ∧
      (n = loopInfoName mode → LoopsOverPlaces mode n) :=
  ⟨assignsBack_of_not_keyword hn hk, capturesBack_of_not_keyword hn hk, loopsBack_of_ne hn hk,
    loopsOverPlaces_of_eq hn hk⟩

/-- In the python dialect `forloop` reads back everywhere; in the standard dialect it is the name of
the place of a turn. -/
theorem reads_back_forloop :
    (Mode.python.grammar.IsTarget "forloop" ∧ LoopsBack .python "forloop") ∧
      Mode.standard.grammar.IsTarget "forloop" ∧ AssignsBack .standard "forloop" ∧
        CapturesBack .standard "forloop" ∧ LoopsOverPlaces .standard "forloop" := by
  have hpython : Mode.python.grammar.IsTarget "forloop" := Grammar.isTarget_iff.mpr (by decide)
  have hstandard : Mode.standard.grammar.IsTarget "forloop" := Grammar.isTarget_iff.mpr (by decide)
  obtain ⟨-, -, hitems, -⟩ := reads_back hpython (by decide)
  obtain ⟨hassigns, hcaptures, -, hplaces⟩ := reads_back hstandard (by decide)
  exact ⟨⟨hpython, hitems (by decide)⟩, hstandard, hassigns, hcaptures, hplaces rfl⟩

/-- Not every name that can be bound reads back: keywords do not, and a loop over the name of the
place of a turn does not write its items. -/
theorem not_reads_back :
    ¬ (∀ mode n, mode.grammar.IsTarget n → AssignsBack mode n) ∧
      ¬ (∀ mode n, mode.grammar.IsTarget n → CapturesBack mode n) ∧
      ¬ (∀ mode n, mode.grammar.IsTarget n → mode.grammar.keywords.lookup n = none →
        LoopsBack mode n) := by
  have hnone : Mode.python.grammar.IsTarget "None" := Grammar.isTarget_iff.mpr (by decide)
  have hnil : Mode.standard.grammar.IsTarget "nil" := Grammar.isTarget_iff.mpr (by decide)
  have hplace : Mode.standard.grammar.IsTarget "forloop" := Grammar.isTarget_iff.mpr (by decide)
  refine ⟨fun h => ?_, fun h => ?_, fun h => ?_⟩
  · exact absurd (h _ _ hnone).written_eq (by decide +kernel)
  · exact absurd (h _ _ hnil).written_eq (by decide +kernel)
  · exact absurd (h _ _ hplace (by decide)).written_eq (by decide +kernel)

end Markup

end TemplateEngine
