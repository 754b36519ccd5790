import DataBinding.Proofs.Network.Sound

/-!
# Runs of a network

Bindings are made and disposed and properties written from outside, in any order. Each of these operations returns,
gives at most as many values to setters as there are bindings, and leaves both sides of every live binding with the
value that the binding has carried over last (`two_way_network_in_step`).
-/

namespace DataBinding

open Effect

namespace Network

variable (N : Network)

inductive Op where
  | bind (left right : Endpoint)
  | dispose (id : BindingId)
  | write (e : Endpoint) (v : Value)

/-- The operation is about endpoints of the network. Accesses of one identity are accesses to one object. -/
def Op.Valid : Op → Prop
  | bind l r => l ∈ N.ends ∧ r ∈ N.ends ∧ (l.node = r.node → l.object = r.object)
  | dispose _ => True
  | write e v => e ∈ N.ends ∧ v.Fits N.platform.types N.type

def Op.run (fuel : Nat) (L : List Link) : Op → Effect (List Link)
  | bind l r => do
    let id ← EqualityBinding.create (N.platform.withFuel fuel) N.config .twoWay l.expr r.expr
    return ⟨id, l, r⟩ :: L
  | dispose id => do
    (N.platform.withFuel fuel).dispose id
    return L
  | write e v => do
    (N.platform.withFuel fuel).writeNamed e.object e.member.name v
    return L

variable {N} {L : List Link} {w w' : World} {v : Value}

theorem Op.run_sound (h : N.Sound L w) {o : Op} (ho : o.Valid N) {f : Nat} (hf : L.length < f) :
    ∃ L' w', o.run N f L w = .ok L' w' ∧ N.Sound L' w' ∧ L'.length ≤ L.length + 1 ∧
      w'.assignments.length ≤ w.assignments.length + L'.length := by
  cases o with
  | bind l r =>
    obtain ⟨hl, hr, hnode⟩ := ho
    obtain ⟨w', hrun, hs, hgiven⟩ := h.bind hl hr hnode hf
    exact ⟨_, w', (bind_of_ok hrun).trans rfl, hs, Nat.le_refl _, hgiven⟩
  | dispose id =>
    obtain ⟨w', hrun, hs, hgiven⟩ := h.dispose id (N.platform.withFuel f)
    refine ⟨L, w', (bind_of_ok hrun).trans rfl, hs, Nat.le_succ _, ?_⟩
    rw [hgiven]
    exact Nat.le_add_right _ _
  | write e v =>
    obtain ⟨he, hv⟩ := ho
    obtain ⟨w', hrun, hs, hgiven⟩ := h.put he hv hf
    have hnamed : (N.platform.withFuel f).writeNamed e.object e.member.name v = e.put (N.platform.withFuel f) v :=
      Endpoint.Loud.writeNamed_eq (N.loud e he) hv
    exact ⟨L, w', (bind_of_ok ((congrFun hnamed w).trans hrun)).trans rfl, hs, Nat.le_succ _, hgiven⟩

theorem run_sound (h : N.Sound L w) {ops : List Op} (hops : ∀ o ∈ ops, o.Valid N) {f : Nat}
    (hf : L.length + ops.length < f + 1) :
    ∃ L' w', ops.foldlM (Op.run N f) L w = .ok L' w' ∧ N.Sound L' w' ∧ L'.length ≤ L.length + ops.length := by
  induction ops generalizing L w with
  | nil => exact ⟨L, w, rfl, h, Nat.le_refl _⟩
  | cons o ops ih =>
    rw [List.length_cons] at hf ⊢
    obtain ⟨L₁, w₁, hrun, hs, hlen, -⟩ := Op.run_sound h (hops o List.mem_cons_self) (f := f) (by omega)
    obtain ⟨L', w', hrest, hs', hlen'⟩ := ih hs (fun o' ho' => hops o' (List.mem_cons_of_mem _ ho')) (by omega)
    exact ⟨L', w', (bind_of_ok hrun).trans hrest, hs', by omega⟩

/-- Nothing is bound, and nothing listens. -/
structure Start (w : World) : Prop where
  fits : ∀ e ∈ N.ends, (e.value w).Fits N.platform.types N.type
  offers : ∀ e ∈ N.ends, (w.object e.object.name).offersChanges = true
  silent : ∀ o, w.handlersOf (.changed o) = []
  unbound : ∀ id, w.bindings.find? id = none

theorem Start.sound (h : N.Start w) : N.Sound [] w where
  ends k hk := absurd hk List.not_mem_nil
  distinct k hk := absurd hk List.not_mem_nil
  fits := h.fits
  offers := h.offers
  handlers o g hg := by
    rw [h.silent o] at hg
    exact absurd hg List.not_mem_nil
  bound k hk := absurd hk List.not_mem_nil
  synced k hk := absurd hk List.not_mem_nil
  listed := {
    known := fun id s hs => by rw [h.unbound id] at hs; cases hs
    fresh := fun k hk => absurd hk List.not_mem_nil
    numbered := fun o g hg => by
      rw [h.silent o] at hg
      exact absurd hg List.not_mem_nil
    owned := fun id s hs => by rw [h.unbound id] at hs; cases hs }

theorem Sound.in_step (h : N.Sound L w) (f : Nat) {k : Link} (hk : k ∈ L) {b : EqualityBinding}
    (hb : w.equality? k.id = some b) (hd : b.disposed = false) :
    ∃ x y, k.left.expr.eval (N.platform.withFuel f) w = .ok x w ∧ k.right.expr.eval (N.platform.withFuel f) w = .ok y w ∧
      x.same y = true ∧ b.value.same x = true ∧ b.value.same y = true := by
  obtain ⟨hleft, hright⟩ := h.ends k hk
  obtain ⟨hl, hr⟩ := h.synced k hk b hb hd
  have hscalar : (k.left.value w).IsScalar := fits_scalar (h.fits k.left hleft)
  have hback := Value.same_symm (.inr hscalar) hl
  have hcached := Value.IsScalar.of_same hscalar hback
  refine ⟨_, _, Endpoint.Loud.eval_eq (N.loud k.left hleft) w, Endpoint.Loud.eval_eq (N.loud k.right hright) w, ?_, hl, hr⟩
  exact Value.same_trans hcached (.inl hscalar) hback hr

end Network

/-- However endpoints have been bound, disposed and written, the next operation returns as well. It gives at most one
value to a setter of each binding, and after it every live binding and its two sides have the same value. -/
theorem two_way_network_in_step (N : Network) {w : World} (h : N.Start w) {ops : List Network.Op} {o : Network.Op}
    (hops : ∀ o ∈ ops, o.Valid N) (ho : o.Valid N) {fuel : Nat} (hf : ops.length < fuel) :
    ∃ L w₁ L' w₂, ops.foldlM (Network.Op.run N fuel) [] w = .ok L w₁ ∧ o.run N fuel L w₁ = .ok L' w₂ ∧
      w₂.assignments.length ≤ w₁.assignments.length + L'.length ∧
      ∀ k ∈ L', ∃ b, w₂.equality? k.id = some b ∧ (b.disposed = false →
        ∃ x y, k.left.expr.eval (N.platform.withFuel fuel) w₂ = .ok x w₂ ∧
          k.right.expr.eval (N.platform.withFuel fuel) w₂ = .ok y w₂ ∧
          x.same y = true ∧ b.value.same x = true ∧ b.value.same y = true) := by
  obtain ⟨L, w₁, hrun, hsound, hlen⟩ := Network.run_sound h.sound hops (f := fuel) (by simp only [List.length_nil]; omega)
  obtain ⟨L', w₂, hlast, hsound', -, hgiven⟩ := Network.Op.run_sound hsound ho (f := fuel) (by
    rw [List.length_nil] at hlen
    omega)
  refine ⟨L, w₁, L', w₂, hrun, hlast, hgiven, fun k hk => ?_⟩
  obtain ⟨b, hb, -⟩ := hsound'.bound k hk
  exact ⟨b, hb, hsound'.in_step fuel hk hb⟩

/-! ## Dials -/

namespace Dials

def level : MemberSpec := ⟨"Level", .property, .int, false, some (.slot "Level"), some (.slot "Level" none true)⟩

def platform : Platform := ⟨⟨[{ name := "Dial", notifies := true, members := [level] }]⟩, fun _ => "Model", none⟩

theorem platform_unlimited : platform.raiseLimit = none := rfl

def dial (i : Nat) (name : String) : Endpoint where
  node := ⟨i⟩
  object := ⟨name, ⟨5⟩, .model⟩
  shown := ⟨5⟩
  label := none
  member := { level with id := ⟨⟨5⟩, 0⟩ }
  slot := "Level"

theorem dial_loud (i : Nat) (name : String) : (dial i name).Loud platform.types {} .int where
  model := rfl
  declared := rfl
  kind := rfl
  isInstance := rfl
  unshadowed := by
    rintro m ⟨⟩
    rfl
  stored := rfl
  notifies := .inl rfl
  unregistered := rfl
  readable := rfl
  writable := rfl
  found := rfl
  writes := rfl
  typed := rfl
  own := rfl

def network : Network where
  platform := platform
  config := {}
  type := .int
  ends := [dial 0 "a", dial 1 "b", dial 2 "c"]
  scalar := by decide
  unlimited := platform_unlimited
  immediate := rfl
  loud e he := by
    simp only [List.mem_cons, List.not_mem_nil, or_false] at he
    rcases he with rfl | rfl | rfl
    all_goals exact dial_loud _ _
  separate e he e' he' _ := by
    have hdial : ∀ e ∈ [dial 0 "a", dial 1 "b", dial 2 "c"], e.slot = "Level" ∧ e.member.name = "Level" := by
      simp only [List.forall_mem_cons]
      exact ⟨⟨rfl, rfl⟩, ⟨rfl, rfl⟩, ⟨rfl, rfl⟩, fun _ h => by cases h⟩
    obtain ⟨hs, hn⟩ := hdial e he
    obtain ⟨hs', hn'⟩ := hdial e' he'
    simp only [hs, hn, hs', hn']

def idle : World where
  objects := (["a", "b", "c"].foldl fun t o =>
    t.insert o { slots := Table.empty.insert "Level" (.integer 0), offersChanges := true }) Table.empty

/-- Three dials in a ring, one binding of which is given up. -/
def ring : List Network.Op :=
  [.bind (dial 0 "a") (dial 1 "b"), .bind (dial 1 "b") (dial 2 "c"), .bind (dial 2 "c") (dial 0 "a"), .dispose ⟨3⟩]

theorem idle_start : network.Start idle where
  fits e he := by
    simp only [network, List.mem_cons, List.not_mem_nil, or_false] at he
    rcases he with rfl | rfl | rfl
    all_goals rfl
  offers e he := by
    simp only [network, List.mem_cons, List.not_mem_nil, or_false] at he
    rcases he with rfl | rfl | rfl
    all_goals rfl
  silent o := rfl
  unbound id := rfl

theorem ring_valid : ∀ o ∈ ring, o.Valid network := by
  simp only [ring, List.forall_mem_cons]
  refine ⟨?_, ?_, ?_, trivial, fun _ h => by cases h⟩
  all_goals
    unfold Network.Op.Valid network
    simp [dial]

theorem ring_in_step :
    ∃ L w₁ L' w₂, ring.foldlM (Network.Op.run network 5) [] idle = .ok L w₁ ∧
      (Network.Op.write (dial 0 "a") (.integer 7)).run network 5 L w₁ = .ok L' w₂ ∧
      ((dial 1 "b").value w₂).asInt? = some 7 ∧ ((dial 2 "c").value w₂).asInt? = some 7 ∧
      ∀ k ∈ L', ∃ b, w₂.equality? k.id = some b ∧ (b.disposed = false →
        ∃ x y, k.left.expr.eval (platform.withFuel 5) w₂ = .ok x w₂ ∧ k.right.expr.eval (platform.withFuel 5) w₂ = .ok y w₂ ∧
          x.same y = true ∧ b.value.same x = true ∧ b.value.same y = true) := by
  obtain ⟨L, w₁, L', w₂, hrun, hlast, -, hstep⟩ := two_way_network_in_step network idle_start ring_valid
    (o := .write (dial 0 "a") (.integer 7)) ⟨List.mem_cons_self, rfl⟩ (show ring.length < 5 by decide)
  have hlevels : (fun w => (((dial 1 "b").value w).asInt?, ((dial 2 "c").value w).asInt?)) (after
      ((ring.foldlM (Network.Op.run network 5) [] >>= fun L =>
        (Network.Op.write (dial 0 "a") (.integer 7)).run network 5 L) idle)) = (some 7, some 7) := by
    decide +kernel
  rw [(bind_of_ok hrun).trans hlast] at hlevels
  exact ⟨L, w₁, L', w₂, hrun, hlast, (Prod.mk.inj hlevels).1, (Prod.mk.inj hlevels).2, hstep⟩

end Dials

end DataBinding
