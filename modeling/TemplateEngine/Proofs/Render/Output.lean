import TemplateEngine.Proofs.Expr.Faults
import TemplateEngine.Proofs.Markup.Embedding
import TemplateEngine.Proofs.Render.Runs

/-!
# Outputs and `echo` tags

An output and an `echo` tag of the same expression write the value as the dialect shows it, or fail
with the error of its evaluation at their own place (`renderNodes_output`, `renderNodes_echo`).
Every expression makes a template of either kind (`output_and_echo`).
-/

namespace TemplateEngine.Template

open Markup

/-- What a template of one expression gives. -/
def outcome (mode : Mode) (offset : Nat) : Except Error Value → Except Stop (String × Signal)
  | .ok v => .ok (v.text mode, .normal)
  | .error e => .error (.error (e.placedAt offset))

section
variable (host : Host) (mode : Mode) (globals : Frame) (x : Expr) (offset : Nat)

theorem renderNodes_output :
    renderNodes host mode globals [.output x offset] =
      outcome mode offset (x.eval host (.ofGlobals mode globals) [0]) := by
  have hclock : (Scope.ofGlobals mode globals).clock = 0 := rfl
  simp only [renderNodes, runNodes, andThen, Node.run, Render.runFrom_bind,
    Render.runFrom_located, Render.runFrom_value, hclock]
  cases x.eval host (.ofGlobals mode globals) [0] with
  | ok v => exact congrArg (fun out => Except.ok (out, Signal.normal)) (String.empty_append)
  | error e => rfl

/-- A tag that does what `echo` does writes what an output writes. -/
theorem renderNodes_echo {d : Tag.Descriptor} (hd : d.behavior = .echo) (name : String) :
    renderNodes host mode globals [.tag ⟨name, d, .expr x, offset⟩ [] []] =
      outcome mode offset (x.eval host (.ofGlobals mode globals) [0]) := by
  have hclock : (Scope.ofGlobals mode globals).clock = 0 := rfl
  simp only [renderNodes, runNodes, clauseViews, andThen, Node.run, Head.run, hd,
    Tag.Behavior.run, Tag.runEcho, Tag.View.expr, pure_bind, Render.runFrom_bind,
    Render.runFrom_located, Render.runFrom_value, hclock]
  cases x.eval host (.ofGlobals mode globals) [0] with
  | ok v => exact congrArg (fun out => Except.ok (out, Signal.normal)) (String.empty_append)
  | error e => rfl

end

/-- **Every expression makes a template.**  Between the delimiters of an output, and behind the name
of an `echo` tag, an expression is read as that expression.  Both templates write the same text or
fail with the same error, and on a host whose functions and filters fail without a place the error
is at the start of the template. -/
theorem output_and_echo {mode : Mode} {e : String} {x : Expr} (h : Expr.parse mode e 0 = .ok x) :
    ∃ d, Tag.Registry.standard.get? "echo" mode = some d ∧
      parse .standard mode ("\x7b\x7b " ++ e ++ " \x7d\x7d") = .ok [.output x 0] ∧
      parse .standard mode ("\x7b% echo " ++ e ++ " %\x7d") =
        .ok [.tag ⟨"echo", d, .expr x, 0⟩ [] []] ∧
      ∀ host globals,
        renderNodes host mode globals [.output x 0] =
          renderNodes host mode globals [.tag ⟨"echo", d, .expr x, 0⟩ [] []] ∧
        (host.FailsUnplaced →
          (∃ text, renderNodes host mode globals [.output x 0] = .ok (text, .normal)) ∨
            ∃ fault, renderNodes host mode globals [.output x 0] =
              .error (.error (.render fault (some 0)))) := by
  obtain ⟨d, hd, -, -, -, hbehavior⟩ := exists_echo mode
  refine ⟨d, hd, parse_output h, parse_echo h hd, fun host globals => ⟨?_, fun hhost => ?_⟩⟩
  · rw [renderNodes_output, renderNodes_echo host mode globals x 0 hbehavior]
  · rw [renderNodes_output]
    cases hv : x.eval host (.ofGlobals mode globals) [0] with
    | ok v => exact .inl ⟨v.text mode, rfl⟩
    | error err =>
      obtain ⟨fault, rfl⟩ := Expr.unplaced_eval hhost _ _ x err hv
      exact .inr ⟨fault, rfl⟩

/-- A dict whose braces and strings look like closing delimiters. -/
theorem output_and_echo_braces :
    let host : Host := ⟨Filter.standard, fun _ _ args => .ok (.tuple args), 1000⟩
    ∃ x d, Expr.parse .python "\x7b1: '%\x7d \x7d\x7d'\x7d[2]" 0 = .ok x ∧
      parse .standard .python ("\x7b\x7b " ++ "\x7b1: '%\x7d \x7d\x7d'\x7d[2]" ++ " \x7d\x7d") =
        .ok [.output x 0] ∧
      parse .standard .python ("\x7b% echo " ++ "\x7b1: '%\x7d \x7d\x7d'\x7d[2]" ++ " %\x7d") =
        .ok [.tag ⟨"echo", d, .expr x, 0⟩ [] []] ∧
      ((∃ text, renderNodes host .python [] [.output x 0] = .ok (text, .normal)) ∨
        ∃ fault, renderNodes host .python [] [.output x 0] =
          .error (.error (.render fault (some 0)))) := by
  have hok : (Expr.parse .python "\x7b1: '%\x7d \x7d\x7d'\x7d[2]" 0).isOk = true := by
    decide +kernel
  obtain ⟨x, hx⟩ := exists_of_isOk hok
  obtain ⟨d, -, ho, he, hr⟩ := output_and_echo hx
  refine ⟨x, d, hx, ho, he, (hr _ []).2 (Host.failsUnplaced_of_standard rfl ?_)⟩
  exact fun _ _ args => unplaced_ok _

end TemplateEngine.Template
