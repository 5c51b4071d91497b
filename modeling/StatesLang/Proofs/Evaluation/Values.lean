import StatesLang.Proofs.Evaluation.Calls

/-!
# Functions of values

Once the parameters of a call have values, all but a few functions work on these.

* `Registry.scope`: what the function of a call is handed.
* `Registry.call_of_find`: the value of a call is what its function makes of that.
* `Builtin.unary_of_values`, `binary_of_params`, `ternary_of_values`: what a function makes of its
  values.
-/

namespace StatesLang

namespace Registry

variable (r : Registry) (sources : Path.Sources)

/-- What the function of a call is handed, where calls among the parameters have some fuel left. -/
def scopeWith (fuel : Nat) (entropy : UInt64) : Handler.Scope :=
  ⟨sources, r.limits, entropy, fun position =>
    resolveParam sources (r.invoke sources fuel (Handler.inner entropy position))⟩

/-- What the function of a call is handed. -/
def scope (entropy : UInt64) (c : Call) : Handler.Scope :=
  r.scopeWith sources (r.callDepth c - 1) entropy

variable {r sources}

theorem invoke_of_find {fuel : Nat} {entropy : UInt64} {c : Call} {h : Handler}
    (hh : r.find? c.name = some h) :
    r.invoke sources (fuel + 1) entropy c = h c (r.scopeWith sources fuel entropy) := by
  rw [invoke, hh]
  rfl

theorem call_of_find {entropy : UInt64} {c : Call} {h : Handler} (hh : r.find? c.name = some h) :
    r.call entropy c sources = h c (r.scope sources entropy c) := by
  rw [call, ← Nat.succ_pred_eq_of_pos (callDepth_pos c), invoke_of_find hh]
  rfl

end Registry

namespace Json.Number

theorem ofInt_val (n : WideInt) : ofInt n.1 = .int n :=
  dif_pos n.2

theorem int64?_ofInt {n : Int} (hlow : -0x8000000000000000 ≤ n) (hhigh : n < 0x8000000000000000) :
    (ofInt n).int64? = some n := by
  rw [ofInt, dif_pos (by omega)]
  exact if_pos hhigh

end Json.Number

namespace Builtin

variable {c : Call} {s : Handler.Scope}

theorem arguments_of_values {least : Nat} {most : Option Nat} {values : List Json}
    (h : s.resolveAll c = .ok values) (htakes : takes least most values.length = true) :
    arguments least most c s = .ok values := by
  rw [Handler.Scope.length_of_resolveFrom h] at htakes
  rw [arguments, if_pos htakes, h]

/-- The first parameter has its say before the second. -/
theorem binary_of_params {f : Call → Json → Json → Except Call.Error Json} {name : String}
    {p q : Call.Param} : binary f ⟨name, [p, q]⟩ s =
      s.resolve 0 p >>= fun a => s.resolve 1 q >>= fun b => f ⟨name, [p, q]⟩ a b := by
  simp only [binary, arguments, takes, Handler.Scope.resolveAll, Call.params,
    Handler.Scope.resolveFrom]
  cases s.resolve 0 p with
  | error e => rfl
  | ok a => cases s.resolve 1 q <;> rfl

theorem unary_of_values {f : Call → Json → Except Call.Error Json} {a : Json}
    (h : s.resolveAll c = .ok [a]) : unary f c s = f c a := by
  unfold unary
  rw [arguments_of_values h rfl]
  rfl

theorem ternary_of_values
    {f : Call → Settings.Calls → Json → Json → Json → Except Call.Error Json} {a b d : Json}
    (h : s.resolveAll c = .ok [a, b, d]) : ternary f c s = f c s.limits a b d := by
  unfold ternary
  rw [arguments_of_values h rfl]
  rfl

end Builtin

end StatesLang
