import DataBinding.Proofs.Network.Endpoint

/-!
# Telling about a change

A write of an endpoint that changes something stores the value and calls the handlers that listen to the object, those
for other properties included (`Endpoint.put_told`).
-/

namespace DataBinding

open Effect

theorem Effect.nested_eq_ok {x : Effect Unit} {w w' : World} (h : x { w with depth := w.depth + 1 } = .ok () w') :
    nested none x w = .ok () { w' with depth := w.depth } := by
  unfold nested
  rw [h]
  rfl

namespace Endpoint

variable {e a : Endpoint} {w : World} {x v : Value}

theorem value_store (a e : Endpoint) (w : World) (x : Value) :
    a.value (e.store w x) = if e.object.name = a.object.name ∧ e.slot = a.slot then x else a.value w :=
  World.slot_setSlot w e.object.name a.object.name e.slot a.slot x

theorem same_store (hx : v.same x = true) (h : v.same (a.value w) = true) : v.same (a.value (e.store w x)) = true := by
  rw [value_store]
  split
  · exact hx
  · exact h

theorem same_of_store (he : v.same (e.value w) = true) (h : v.same (a.value (e.store w x)) = true) :
    v.same (a.value w) = true := by
  rw [value_store] at h
  split at h
  · rename_i hslot
    unfold value at he ⊢
    rw [← hslot.1, ← hslot.2]
    exact he
  · exact h

theorem value_store_self (e : Endpoint) (w : World) (x : Value) : e.value (e.store w x) = x := by
  rw [value_store, if_pos ⟨rfl, rfl⟩]

theorem offers_store (e : Endpoint) (w : World) (x : Value) (o : String) :
    ((e.store w x).object o).offersChanges = (w.object o).offersChanges := by
  unfold store World.setSlot World.object
  by_cases h : e.object.name = o <;> simp [h]

/-- The world in which the handlers of a changed side are called. -/
def raising (e : Endpoint) (w : World) (x : Value) : World :=
  { e.store w x with log := ("changed " ++ e.object.name ++ "." ++ e.member.name) :: w.log, depth := w.depth + 1 }

theorem put_told {host : Host} {w' : World} (hl : host.raiseLimit = none) (hs : x.settles (e.value w) = false)
    (h : respondAll host (.property e.member.name) (w.handlersOf (.changed e.object.name)) (e.raising w x) = .ok () w') :
    e.put host x w = .ok () { w' with depth := w.depth } := by
  unfold put
  rw [hs]
  show nested host.raiseLimit _ _ = _
  rw [hl]
  exact nested_eq_ok h

end Endpoint

/-! ## Handlers of properties -/

/-- Answers to changes of other properties only. -/
def Handler.Deaf (g : Handler) (name : String) : Prop := ∃ n a, g.response = .onProperty n a ∧ n ≠ name

section
variable (host : Host) {g : Handler} {name : String}

theorem respond_deaf (hg : g.Deaf name) (w : World) : g.respond host (.property name) w = .ok () w := by
  obtain ⟨n, a, hresponse, hne⟩ := hg
  unfold Handler.respond
  rw [hresponse]
  simp only [EventArgs.property.injEq, Ne.symm hne, if_false]
  rfl

theorem respond_listening {a : Action} (hg : g.response = .onProperty name a) :
    g.respond host (.property name) = host.perform a := by
  unfold Handler.respond
  rw [hg]
  exact if_pos rfl

theorem respondAll_still {args : EventArgs} {gs : List Handler} {w : World}
    (h : ∀ g ∈ gs, g.respond host args w = .ok () w) : respondAll host args gs w = .ok () w := by
  induction gs with
  | nil => rfl
  | cons g gs ih => exact (bind_of_ok (h g List.mem_cons_self)).trans (ih fun g hg => h g (List.mem_cons_of_mem _ hg))

end

end DataBinding
