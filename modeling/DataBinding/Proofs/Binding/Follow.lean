import DataBinding.Binding.Build
import DataBinding.Proofs.Effect

/-!
# Following a side

What an equality binding does with a value, as equations: its cached value is replaced, and the value is handed to
the dispatcher, before anything else runs.
-/

namespace DataBinding

open Effect

/-! ## The state of a binding -/

def Binding.handlers : Binding → List Handler
  | equality b => (b.left ++ b.right).filterMap Trigger.handler
  | action b => b.triggers.filterMap Trigger.handler
  | event b => b.handler.toList
  | custom _ => []

def Binding.Owns (s : Binding) (n : Nat) : Prop := ∃ g ∈ s.handlers, g.id = n

def World.birth (w : World) (s : Binding) : World := { w with next := w.next + 1 }.setBinding ⟨w.next⟩ s

def World.registering (w : World) (b : EqualityBinding) : World :=
  { w with next := w.next + 1 }.setBinding ⟨w.next⟩ (.equality b)

theorem World.equality?_eq_some {w : World} {id : BindingId} {b : EqualityBinding} :
    w.equality? id = some b ↔ w.bindings.find? id = some (.equality b) := by
  unfold World.equality?
  split
  · rename_i s hs
    rw [hs]
    simp
  · rename_i hs
    constructor
    · intro h
      cases h
    · exact fun h => absurd h (hs b)

def World.assignment? (w : World) (b : BindingId) : Option Assignment := w.assignments.find? (·.binding = b)

/-- The world when the setter of a binding without a dispatcher gets a new value. -/
def World.carried (w : World) (id : BindingId) (b : EqualityBinding) (s : Setter) (v : Value) : World :=
  { w.setBinding id (.equality { b with value := v }) with assignments := ⟨id, s, v⟩ :: w.assignments }

theorem World.equality?_carried (w : World) (id : BindingId) (b : EqualityBinding) (s : Setter) (v : Value) :
    (w.carried id b s v).equality? id = some { b with value := v } := by
  rw [World.equality?_eq_some]
  exact (World.find?_setBinding _ _ _ _).trans (if_pos rfl)

theorem World.assignment?_carried (w : World) (id : BindingId) (b : EqualityBinding) (s : Setter) (v : Value) :
    (w.carried id b s v).assignment? id = some ⟨id, s, v⟩ := List.find?_cons_of_pos (by simp)

theorem World.updateEquality_eq (w : World) (id : BindingId) (f : EqualityBinding → EqualityBinding) :
    w.updateEquality id f = { w with bindings := (w.updateEquality id f).bindings } := by
  unfold updateEquality
  split
  · rfl
  · rfl

theorem World.updateEquality_frame (w : World) (id : BindingId) (f : EqualityBinding → EqualityBinding) :
    (w.updateEquality id f).objects = w.objects ∧ (w.updateEquality id f).assignments = w.assignments ∧
      (w.updateEquality id f).jobs = w.jobs ∧ (w.updateEquality id f).next = w.next ∧
      (w.updateEquality id f).handlers = w.handlers := by
  rw [updateEquality_eq]
  exact ⟨rfl, rfl, rfl, rfl, rfl⟩

theorem World.equality?_updateEquality (w : World) (id : BindingId) (f : EqualityBinding → EqualityBinding) :
    (w.updateEquality id f).equality? id = (w.equality? id).map f := by
  unfold updateEquality
  cases hb : w.equality? id with
  | none => exact hb
  | some b => rw [Option.map_some, equality?_eq_some, find?_setBinding, if_pos rfl]

theorem World.find?_updateEquality (w : World) {id b : BindingId} (f : EqualityBinding → EqualityBinding)
    (h : b ≠ id) : (w.updateEquality id f).bindings.find? b = w.bindings.find? b := by
  unfold updateEquality
  split
  · rw [find?_setBinding, if_neg (Ne.symm h)]
  · rfl

theorem World.mem_handlersOf_add {w : World} {k k' : EventKey} {g h : Handler} :
    h ∈ (w.setHandlers k (w.handlersOf k ++ [g])).handlersOf k' ↔ h ∈ w.handlersOf k' ∨ (k' = k ∧ h = g) := by
  rw [World.handlersOf_setHandlers]
  by_cases hk : k = k'
  · simp [hk]
  · simp [hk, Ne.symm hk]

/-! ## Carrying a value over -/

namespace EqualityBinding

variable {host : Host} {w : World} {id : BindingId} {b : EqualityBinding} {source : Getter} {target : Setter} {v : Value}

theorem assign_eq (hb : w.equality? id = some b) (hflags : b.flags.isOneTime = false) :
    assign host id target v w = dispatch host b.dispatcher (.assign ⟨id, target, v⟩) w := by
  unfold assign
  rw [bind_get]
  simp only [hb, hflags, Bool.false_eq_true, if_false]
  exact congrFun bind_pure_unit w

theorem updateEquality_value (hb : w.equality? id = some b) :
    w.updateEquality id (fun b => { b with value := v }) = w.setBinding id (.equality { b with value := v }) := by
  rw [World.updateEquality, hb]

theorem assign_prompt (hb : w.equality? id = some b) (hdisp : b.dispatcher = none) :
    assign host id target v (w.updateEquality id fun b => { b with value := v }) =
      (target.run host v >>= fun _ => if b.flags.isOneTime then host.dispose id else pure ())
        (w.carried id b target v) := by
  have hfind : (w.updateEquality id fun b => { b with value := v }).equality? id = some { b with value := v } := by
    rw [World.equality?_updateEquality, hb]
    rfl
  have hrun : dispatch host b.dispatcher (.assign ⟨id, target, v⟩) = Job.run host (.assign ⟨id, target, v⟩) := by
    rw [hdisp]
    rfl
  unfold assign
  rw [bind_get]
  simp only [hfind, hrun]
  rw [updateEquality_value hb]
  rfl

theorem assign_carried (hb : w.equality? id = some b) (hdisp : b.dispatcher = none) (hflags : b.flags.isOneTime = false) :
    assign host id target v (w.updateEquality id fun b => { b with value := v }) =
      target.run host v (w.carried id b target v) := by
  rw [assign_prompt hb hdisp, hflags]
  exact congrFun bind_pure_unit _

/-- A live binding whose side has another value than the one carried over last carries the new one over. -/
theorem follow_reads {w₁ : World} {b₁ : EqualityBinding} (hb : w.equality? id = some b) (hd : b.disposed = false)
    (hv : source.run host w = .ok v w₁) (hb₁ : w₁.equality? id = some b₁) :
    follow host id source target w =
      if b₁.value.same v then .ok () w₁
      else assign host id target v (w₁.updateEquality id fun b => { b with value := v }) := by
  unfold follow
  rw [bind_get]
  simp only [hb, hd, Bool.false_eq_true, if_false]
  rw [bind_of_ok hv, bind_get]
  simp only [hb₁]
  cases b₁.value.same v with
  | true => rfl
  | false => rfl

theorem follow_eq (hb : w.equality? id = some b) (hd : b.disposed = false) (hv : source.run host w = .ok v w) :
    follow host id source target w =
      if b.value.same v then .ok () w
      else assign host id target v (w.updateEquality id fun b => { b with value := v }) :=
  follow_reads hb hd hv hb

theorem follow_fails {w₁ : World} {e : Stop} (hb : w.equality? id = some b) (hd : b.disposed = false)
    (hv : source.run host w = .error e w₁) : follow host id source target w = .error e w₁ := by
  unfold follow
  rw [bind_get]
  simp only [hb, hd, Bool.false_eq_true, if_false]
  exact bind_of_error hv

theorem follow_disposed (hb : w.equality? id = some b) (hd : b.disposed = true) :
    follow host id source target w = .ok () w := by
  unfold follow
  rw [bind_get]
  simp only [hb, hd, if_true]
  rfl

theorem start_eq (hv : source.run host w = .ok v w) {flags : Flags}
    (hi : flags.hasInitialTrigger = true) :
    start host id flags source target w =
      (assign host id target v >>= fun _ => pure flags.isOneTime) (w.updateEquality id fun b => { b with value := v }) := by
  unfold start
  rw [bind_of_ok hv]
  simp only [hi, Bool.not_true, Bool.false_eq_true, if_false]
  rfl

end EqualityBinding

end DataBinding
