import LuvFlicker.Execution.CoolDown

/-!
# The limits of a symbol

No operation of the gateway but `set_limits` changes the limits of a symbol.
-/

namespace LuvFlicker.ExecutionGateway

theorem limits_step (g : ExecutionGateway) (call : GatewayCall) {symbol : Nat}
    (h : ∀ limits, call.op ≠ .setLimits symbol limits) : (step call g).2.limits symbol = g.limits symbol := by
  by_cases hLimits : ∃ other limits, call.op = .setLimits other limits
  · obtain ⟨other, limits, hOp⟩ := hLimits
    have hne : symbol ≠ other := fun hSame => h _ (by rw [hSame, hOp])
    simp only [step, hOp, setLimits]
    split_ifs
    · exact Function.update_of_ne hne ..
    · rfl
  · by_cases hSpares : call.sparesBreaker = true
    · exact congrFun (step_controlled g hSpares fun other limits hOp => hLimits ⟨_, _, hOp⟩).limits _
    · obtain ⟨op, _⟩ := call
      cases op <;> first | rfl | exact absurd rfl hSpares

end LuvFlicker.ExecutionGateway
