import DataBinding.Proofs.Run.Later

/-!
# Disposed bindings are inert

Equality and action bindings look whether they are disposed before they react, so a raise goes on as if their handlers were
not in its list, also in a list that was taken before the disposal (`dispose_silences`). An event binding does not
look: it is silent only for raises that start without its handler (`Clicks.disposed_binding_acts`).
-/

namespace DataBinding

open Effect

/-- A reaction of the binding that looks first whether the binding is disposed. The action of an event binding does not
look, and is none. -/
def Action.reactsFor (id : BindingId) : Action → Bool
  | follow b _ _ => b = id
  | rerun b _ => b = id
  | _ => false

def Handler.reactsFor (id : BindingId) (h : Handler) : Bool :=
  match h.response with
  | .always a => a.reactsFor id
  | .onProperty _ a => a.reactsFor id
  | .report _ _ => false

def Binding.Silent : Binding → Prop
  | custom _ => True
  | s => s.isDisposed = true

def World.Silent (w : World) (id : BindingId) : Prop := ∃ s, w.bindings.find? id = some s ∧ s.Silent

theorem Binding.Silent.continues {s s' : Binding} (h : s.Silent) (hc : s.Continues s') : s'.Silent := by
  cases s <;> cases s' <;> simp_all [Silent, Continues, isDisposed]

theorem silent_later {m : Nat} {w w' : World} {id : BindingId} (h : World.Later m w w') (hm : m ≤ w.next)
    (hid : id.index < m) (hs : w.Silent id) : m ≤ w'.next ∧ w'.Silent id := by
  obtain ⟨s, hs, hd⟩ := hs
  obtain ⟨hm', hl⟩ := h hm
  obtain ⟨s', hs', hc⟩ := hl.bindings id s hid hs
  exact ⟨hm', s', hs', hd.continues hc⟩

section
variable {host : Host} {w : World} {id : BindingId}

theorem follow_silent (h : w.Silent id) (source : Getter) (target : Setter) :
    EqualityBinding.follow host id source target w = .ok () w := by
  obtain ⟨s, hs, hd⟩ := h
  cases s with
  | equality b => exact EqualityBinding.follow_disposed (World.equality?_eq_some.mpr hs) hd
  | _ =>
    unfold EqualityBinding.follow World.equality?
    rw [bind_get]
    simp only [hs]
    rfl

theorem rerun_silent (h : w.Silent id) (call : Getter) : ActionBinding.rerun host id call w = .ok () w := by
  obtain ⟨s, hs, hd⟩ := h
  unfold ActionBinding.rerun World.action?
  rw [bind_get]
  simp only [hs]
  cases s with
  | action b =>
    have hb : b.disposed = true := hd
    simp only [hb, if_true]
    rfl
  | _ => rfl

variable {p : Platform} {scripts : List Act → HostCode}

theorem perform_silent (h : w.Silent id) {a : Action} (ha : a.reactsFor id = true) (n : Nat) :
    (p.running scripts (n + 1)).perform a w = .ok () w := by
  cases a with
  | follow b source target =>
    cases of_decide_eq_true ha
    exact follow_silent h source target
  | rerun b call =>
    cases of_decide_eq_true ha
    exact rerun_silent h call
  | _ => cases ha

theorem respond_silent (h : w.Silent id) {g : Handler} (hg : g.reactsFor id = true) (n : Nat) (args : EventArgs) :
    g.respond (p.running scripts (n + 1)) args w = .ok () w := by
  obtain ⟨i, payload, response⟩ := g
  cases response with
  | always a => exact perform_silent h hg n
  | onProperty name a =>
    unfold Handler.respond
    simp only
    split
    · exact perform_silent h hg n
    · rfl
  | report name acts => cases hg

theorem HostCode.makes_any (c : HostCode) : c.Makes (fun _ => True) (fun _ => True) := by
  induction c with
  | done => trivial
  | fail e => trivial
  | halt => trivial
  | look next ih => exact ih
  | act a next ih => exact ih
  | bind name b next ih => exact ⟨trivial, ih⟩
  | tryBind name b next ih => exact ⟨trivial, ih⟩
  | makeHandler name acts next ih => exact ih
  | listen k handler next ih => exact ih
  | unlisten k handler next ih => exact ih

theorem run_later (p : Platform) (scripts : List Act → HostCode) (fuel : Nat) (c : HostCode) (m : Nat) :
    Lasts (World.Later m) (c.run (p.running scripts fuel)) :=
  (later p scripts m).run (fun acts => (scripts acts).makes_any) fuel c c.makes_any

theorem respondAll_cons (args : EventArgs) (g : Handler) (hs : List Handler) :
    respondAll host args (g :: hs) = (g.respond host args >>= fun _ => respondAll host args hs) := rfl

theorem respondAll_silent {m : Nat} (hid : id.index < m) (n : Nat) (args : EventArgs) (hs : List Handler) {w : World}
    (hm : m ≤ w.next) (h : w.Silent id) :
    respondAll (p.running scripts (n + 1)) args hs w =
      respondAll (p.running scripts (n + 1)) args (hs.filter fun g => !g.reactsFor id) w := by
  have hperform := (later p scripts m).perform (fun acts => (scripts acts).makes_any) (n + 1)
  -- Each answer may lead to another world, and in every later one the binding is still silent.
  induction hs generalizing w with
  | nil => rfl
  | cons g hs ih =>
    rw [respondAll_cons]
    cases hg : g.reactsFor id with
    | true =>
      rw [List.filter_cons_of_neg (by simp [hg]), bind_of_ok (respond_silent h hg n args)]
      exact ih hm h
    | false =>
      rw [List.filter_cons_of_pos (by simp [hg]), respondAll_cons]
      cases hr : g.respond (p.running scripts (n + 1)) args w with
      | ok u w₁ =>
        have hl : World.Later m w w₁ := ((later p scripts m).respond hperform args g).ok w u w₁ hr
        obtain ⟨hm₁, h₁⟩ := silent_later hl hm hid h
        rw [bind_of_ok hr, bind_of_ok hr]
        exact ih hm₁ h₁
      | error e w₁ => rw [bind_of_error hr, bind_of_error hr]

theorem dispose_silent {s : Binding} {w₁ : World} (hs : w.bindings.find? id = some s) (h : host.dispose id w = .ok () w₁) :
    w₁.next = w.next ∧ w₁.Silent id := by
  cases hd : s.isDisposed with
  | true =>
    cases h.symm.trans (dispose_disposed hs hd)
    exact ⟨rfl, s, hs, by cases s <;> first | exact hd | trivial⟩
  | false =>
    obtain ⟨w₂, h₂, hl⟩ := dispose_live host hs hd
    cases h.symm.trans h₂
    refine ⟨hl.next, s.disposal, ?_, by cases s <;> first | exact rfl | trivial⟩
    rw [hl.bindings, World.find?_setBinding, if_pos rfl]

/-- After an equality or action binding was disposed, every list of handlers answers as if those of the binding were not
there, in whatever world host code leads to. A handler of any binding, of an event too, that the disposal took out of all
lists stays out of them. -/
theorem dispose_silences (p : Platform) (scripts : List Act → HostCode) (fuel : Nat) (code : HostCode)
    {f : Action → Effect Unit} {w₀ w : World} {id : BindingId} {s : Binding} (hs : w₀.bindings.find? id = some s)
    (hid : id.index < w₀.next) (hnumbers : ∀ g ∈ s.handlers, g.id < w₀.next)
    (h : Host.dispose ⟨p, f⟩ id w₀ = .ok () w) :
    (∀ n args hs, respondAll (p.running scripts (n + 1)) args hs (after (code.run (p.running scripts fuel) w)) =
      respondAll (p.running scripts (n + 1)) args (hs.filter fun g => !g.reactsFor id)
        (after (code.run (p.running scripts fuel) w))) ∧
      ∀ g ∈ s.handlers, w.Absent g.id → (after (code.run (p.running scripts fuel) w)).Absent g.id := by
  obtain ⟨hnext, hsilent⟩ := dispose_silent hs h
  have hm : w₀.next ≤ w.next := Nat.le_of_eq hnext.symm
  have hl := (run_later p scripts fuel code w₀.next).after w
  obtain ⟨hm', hsilent'⟩ := silent_later hl hm hid hsilent
  refine ⟨fun n args hs => respondAll_silent hid n args hs hm' hsilent', fun g hg ha => ?_⟩
  exact (hl hm).2.absent g.id (hnumbers g hg) ha

end

/-! ## Clicks -/

namespace Clicks

def platform : Platform := ⟨⟨[{ name := "Model", notifies := true }]⟩, fun _ => "Model", none⟩

def host : Host := platform.running HostCode.ofActs 4

def button : ObjectRef := ⟨"a", ⟨5⟩, .model⟩

def clicked : EventKey := .named "a" .clicked

/-- A click disposes the binding `k`, which logs that it ran. -/
def bindings : HostCode :=
  .bind "killer" (.event {} .empty (.object button) "Clicked" [.dispose "k"])
    (.bind "k" (.event {} .empty (.object button) "Clicked" [.log "ran"]) .done)

def setUp : World := after (bindings.run host { objects := Table.empty.insert "a" { exposed := ["Clicked"] } })

/-- The second handler is in the list that the raise has taken, so it runs although its binding is disposed and has let
go of it. -/
theorem disposed_binding_acts :
    (setUp.namedBindings.find? "k") = some ⟨2⟩ ∧ (setUp.event? ⟨2⟩).map (·.disposed) = some false ∧
      (setUp.handlersOf clicked).map Handler.id = [1, 3] ∧
      ((after (host.raise clicked .none setUp)).event? ⟨2⟩).map (·.disposed) = some true ∧
      ((after (host.raise clicked .none setUp)).handlersOf clicked).map Handler.id = [1] ∧
      (after (host.raise clicked .none setUp)).log.take 2 = ["log ran", "DEBUG Removed handler [Clicked] for Model"] := by
  decide +kernel

theorem absent_of_entries {w : World} {n : Nat} (hhandlers : ∀ e ∈ w.handlers.entries, ∀ g ∈ e.2, g.id ≠ n)
    (hdirect : ∀ d ∈ w.direct, d.2.id ≠ n) (hnamed : ∀ e ∈ w.namedHandlers.entries, e.2.id ≠ n) : w.Absent n where
  handlers k g hg := by
    unfold World.handlersOf at hg
    cases hk : w.handlers.find? k with
    | none =>
      rw [hk] at hg
      cases hg
    | some gs =>
      rw [hk] at hg
      exact hhandlers _ (Table.mem_entries hk) g hg
  direct := hdirect
  named name g hg := hnamed _ (Table.mem_entries hg)

/-- Disposed before the click, the binding stays out of the event. -/
theorem disposed_before_click :
    ∃ w, host.dispose ⟨2⟩ setUp = .ok () w ∧ w.Absent 3 ∧
      (after ((HostCode.ofActs [.raise button .clicked]).run host w)).Absent 3 := by
  obtain ⟨b, hb⟩ : ∃ b, setUp.bindings.find? ⟨2⟩ = some b := Option.isSome_iff_exists.mp (by decide +kernel)
  have hown : ((setUp.bindings.find? ⟨2⟩).map fun s => s.handlers.map Handler.id) = some [3] := by decide +kernel
  rw [hb, Option.map_some, Option.some.injEq] at hown
  obtain ⟨g, hg, hid⟩ : ∃ g ∈ b.handlers, g.id = 3 := List.mem_map.mp (by rw [hown]; exact List.mem_singleton.mpr rfl)
  have hnumbers : ∀ g ∈ b.handlers, g.id < setUp.next := by
    intro g hg
    have hmem : g.id ∈ b.handlers.map Handler.id := List.mem_map_of_mem hg
    rw [hown, List.mem_singleton] at hmem
    rw [hmem]
    decide +kernel
  have hdispose : host.dispose ⟨2⟩ setUp = .ok () (after (host.dispose ⟨2⟩ setUp)) := eq_ok_after (by decide +kernel)
  have habsent : (after (host.dispose ⟨2⟩ setUp)).Absent 3 :=
    absent_of_entries (by decide +kernel) (by decide +kernel) (by decide +kernel)
  have h := dispose_silences platform HostCode.ofActs 4 (HostCode.ofActs [.raise button .clicked]) hb (by decide +kernel)
    hnumbers hdispose
  exact ⟨_, hdispose, habsent, hid ▸ h.2 g hg (hid.symm ▸ habsent)⟩

end Clicks

end DataBinding
