import Rtcr.Checkpointer.Steps
import Rtcr.Intercept.Objects
import Rtcr.Lib.Run

/-!
# PdSession — signal sources and signal contexts

A PD session keeps a list of its signal sources and one of its signal
contexts. Nothing connects the two: a context remembers the capability of
its source, and a source that is freed leaves its contexts behind. Any
source will do for a context, that of another session included.
-/

namespace Rtcr

namespace PdSessionComponent

/-- `Pd_session_component::alloc_signal_source`. -/
def allocSignalSource (bootstrapPhase : Bool) (pd : PdSessionComponent) (core : Core) :
    Cap × PdSessionComponent × Core :=
  let source := SignalSourceInfo.create bootstrapPhase core
  (source.1.cap,
    pd.setSignals (source.1 :: pd.parentState.signalSources) pd.parentState.signalContexts,
    source.2)

/-- `Pd_session_component::free_signal_source`; a source that is not in
the list only gives an error message. -/
def freeSignalSource (cap : Cap) (pd : PdSessionComponent) : PdSessionComponent :=
  pd.setSignals
    (pd.parentState.signalSources.eraseP fun source => source.cap.localName == cap.localName)
    pd.parentState.signalContexts

/-- `Pd_session_component::alloc_context`. -/
def allocContext (source : Cap) (imprint : Nat) (bootstrapPhase : Bool) (pd : PdSessionComponent)
    (core : Core) : Cap × PdSessionComponent × Core :=
  let context := SignalContextInfo.create source imprint bootstrapPhase core
  (context.1.cap,
    pd.setSignals pd.parentState.signalSources (context.1 :: pd.parentState.signalContexts),
    context.2)

/-- `Pd_session_component::free_context`. -/
def freeContext (cap : Cap) (pd : PdSessionComponent) : PdSessionComponent :=
  pd.setSignals pd.parentState.signalSources
    (pd.parentState.signalContexts.eraseP fun context => context.cap.localName == cap.localName)

end PdSessionComponent

/-! ## The calls of a child -/

/-- The PD sessions of the child, the signal sources that they have handed
out so far, and the badges of the child's other objects. -/
structure SignalWorld where
  pdRoot : List PdSessionComponent
  core : Core
  issued : List Cap
  others : List Nat

inductive SignalCall
  | createSession (args : String)
  | allocSignalSource
  | freeSignalSource (cap : Cap)
  | allocContext (source : Cap) (imprint : Nat)
  | freeContext (cap : Cap)
  | other

/-- One call of the child, of any of its PD sessions. The source of a new
context is one that some session has handed out, be it freed or not, or
invalid. In between the child's other objects come and go, with the badges
that core hands out for them. -/
inductive SignalStep (g : Genode) : SignalWorld → SignalCall → SignalWorld → Prop
  | createSession (pdRoot : List PdSessionComponent) (core : Core) (issued : List Cap)
      (others : List Nat) (args : String) :
      SignalStep g ⟨pdRoot, core, issued, others⟩ (.createSession args)
        ⟨(PdSessionComponent.create g false args core).1 :: pdRoot,
          (PdSessionComponent.create g false args core).2, issued, others⟩
  | allocSignalSource {l₁ l₂ : List PdSessionComponent} {pd pd' : PdSessionComponent}
      {core core' : Core} {issued : List Cap} {others : List Nat} {cap : Cap}
      (h : pd.allocSignalSource false core = (cap, pd', core')) :
      SignalStep g ⟨l₁ ++ pd :: l₂, core, issued, others⟩ .allocSignalSource
        ⟨l₁ ++ pd' :: l₂, core', cap :: issued, others⟩
  | freeSignalSource (l₁ l₂ : List PdSessionComponent) (pd : PdSessionComponent) (core : Core)
      (issued : List Cap) (others : List Nat) (cap : Cap) :
      SignalStep g ⟨l₁ ++ pd :: l₂, core, issued, others⟩ (.freeSignalSource cap)
        ⟨l₁ ++ pd.freeSignalSource cap :: l₂, core, issued, others⟩
  | allocContext {l₁ l₂ : List PdSessionComponent} {pd pd' : PdSessionComponent}
      {core core' : Core} {issued : List Cap} {others : List Nat} {source cap : Cap}
      {imprint : Nat} (hsource : source = Cap.invalid ∨ source ∈ issued)
      (h : pd.allocContext source imprint false core = (cap, pd', core')) :
      SignalStep g ⟨l₁ ++ pd :: l₂, core, issued, others⟩ (.allocContext source imprint)
        ⟨l₁ ++ pd' :: l₂, core', issued, others⟩
  | freeContext (l₁ l₂ : List PdSessionComponent) (pd : PdSessionComponent) (core : Core)
      (issued : List Cap) (others : List Nat) (cap : Cap) :
      SignalStep g ⟨l₁ ++ pd :: l₂, core, issued, others⟩ (.freeContext cap)
        ⟨l₁ ++ pd.freeContext cap :: l₂, core, issued, others⟩
  | other (pdRoot : List PdSessionComponent) (issued : List Cap) {core core' : Core}
      {others others' : List Nat} (h : core.nextBadge ≤ core'.nextBadge)
      (hothers : ∀ b ∈ others', b ∈ others ∨ core.nextBadge ≤ b ∧ b < core'.nextBadge) :
      SignalStep g ⟨pdRoot, core, issued, others⟩ .other ⟨pdRoot, core', issued, others'⟩

/-! ## What the calls keep -/

/-- Every context of the session has a source that is still in the
session's list, or none. -/
def PdSessionComponent.ContextsAnchored (pd : PdSessionComponent) : Prop :=
  ∀ c ∈ pd.parentState.signalContexts,
    c.ssCap.localName = 0 ∨ c.ssCap ∈ pd.parentState.signalSources.map (·.cap)

instance (pd : PdSessionComponent) : Decidable pd.ContextsAnchored :=
  inferInstanceAs (Decidable (∀ c ∈ pd.parentState.signalContexts,
    c.ssCap.localName = 0 ∨ c.ssCap ∈ pd.parentState.signalSources.map (·.cap)))

/-- One PD session, where badges up to `n` and the signal sources
`issued` have been handed out. -/
structure SignalsKept (n : Nat) (issued : List Cap) (pd : PdSessionComponent) : Prop where
  badge : pd.cap.localName < n
  lists : Checkpointer.PdDistinct pd
  sources : ∀ s ∈ pd.parentState.signalSources, s.cap ∈ issued
  contexts : ∀ c ∈ pd.parentState.signalContexts, c.cap.localName < n ∧
    (c.ssCap.localName = 0 ∨ c.ssCap ∈ issued)
  apart : ∀ cap ∈ issued, cap.localName ≠ pd.cap.localName ∧
    ∀ c ∈ pd.parentState.signalContexts, cap.localName ≠ c.cap.localName

section Kept

variable {n n' : Nat} {core : Core} {issued : List Cap} {pd : PdSessionComponent}

theorem SignalsKept.mono (h : SignalsKept n issued pd) (hle : n ≤ n') :
    SignalsKept n' issued pd where
  badge := h.badge.trans_le hle
  lists := h.lists
  sources := h.sources
  contexts c hc := ⟨(h.contexts c hc).1.trans_le hle, (h.contexts c hc).2⟩
  apart := h.apart

/-- A signal source more, anywhere. -/
theorem SignalsKept.issue (h : SignalsKept n issued pd) :
    SignalsKept (n + 1) (⟨n⟩ :: issued) pd where
  badge := h.badge.trans (Nat.lt_succ_self n)
  lists := h.lists
  sources s hs := List.mem_cons_of_mem _ (h.sources s hs)
  contexts c hc :=
    ⟨(h.contexts c hc).1.trans (Nat.lt_succ_self n),
      (h.contexts c hc).2.imp_right (List.mem_cons_of_mem _)⟩
  apart := by
    intro cap hcap
    rcases List.mem_cons.mp hcap with rfl | hcap
    · exact ⟨h.badge.ne', fun c hc => (h.contexts c hc).1.ne'⟩
    · exact h.apart cap hcap

theorem SignalsKept.allocSignalSource (h : SignalsKept core.nextBadge issued pd)
    (hissued : ∀ cap ∈ issued, cap.localName < core.nextBadge) (bootstrapPhase : Bool) :
    SignalsKept (core.nextBadge + 1) (⟨core.nextBadge⟩ :: issued)
      (pd.allocSignalSource bootstrapPhase core).2.1 := by
  have hmore := h.issue
  refine ⟨hmore.badge, ⟨hmore.lists.nativeCaps, ?_, hmore.lists.contexts, hmore.lists.areas⟩,
    fun s hs => ?_, hmore.contexts, hmore.apart⟩
  · refine List.nodup_cons.mpr ⟨fun hmem => ?_, h.lists.sources⟩
    obtain ⟨s, hs, he⟩ := List.mem_map.mp hmem
    exact (hissued s.cap (h.sources s hs)).ne he
  · rcases List.mem_cons.mp hs with rfl | hs
    · exact List.mem_cons_self
    · exact List.mem_cons_of_mem _ (h.sources s hs)

theorem SignalsKept.freeSignalSource (h : SignalsKept n issued pd) (cap : Cap) :
    SignalsKept n issued (pd.freeSignalSource cap) where
  badge := h.badge
  lists := ⟨h.lists.nativeCaps, h.lists.sources.sublist (List.eraseP_sublist.map _),
    h.lists.contexts, h.lists.areas⟩
  sources s hs := h.sources s (List.mem_of_mem_eraseP hs)
  contexts := h.contexts
  apart := h.apart

theorem SignalsKept.allocContext (h : SignalsKept core.nextBadge issued pd)
    (hissued : ∀ cap ∈ issued, cap.localName < core.nextBadge) {source : Cap}
    (hsource : source = Cap.invalid ∨ source ∈ issued) (imprint : Nat) (bootstrapPhase : Bool) :
    SignalsKept (core.nextBadge + 1) issued
      (pd.allocContext source imprint bootstrapPhase core).2.1 := by
  have hmore := h.mono (Nat.le_succ core.nextBadge)
  refine ⟨hmore.badge, ⟨hmore.lists.nativeCaps, hmore.lists.sources, ?_, hmore.lists.areas⟩,
    hmore.sources, fun c hc => ?_, fun cap hcap => ⟨(hmore.apart cap hcap).1, fun c hc => ?_⟩⟩
  · refine List.nodup_cons.mpr ⟨fun hmem => ?_, h.lists.contexts⟩
    obtain ⟨c, hc, he⟩ := List.mem_map.mp hmem
    exact (h.contexts c hc).1.ne he
  · rcases List.mem_cons.mp hc with rfl | hc
    · exact ⟨Nat.lt_succ_self _, hsource.imp_left fun he => by rw [he]; rfl⟩
    · exact hmore.contexts c hc
  · rcases List.mem_cons.mp hc with rfl | hc
    · exact (hissued cap hcap).ne
    · exact (hmore.apart cap hcap).2 c hc

theorem SignalsKept.freeContext (h : SignalsKept n issued pd) (cap : Cap) :
    SignalsKept n issued (pd.freeContext cap) where
  badge := h.badge
  lists := ⟨h.lists.nativeCaps, h.lists.sources,
    h.lists.contexts.sublist (List.eraseP_sublist.map _), h.lists.areas⟩
  sources := h.sources
  contexts c hc := h.contexts c (List.mem_of_mem_eraseP hc)
  apart c hc := ⟨(h.apart c hc).1, fun d hd => (h.apart c hc).2 d (List.mem_of_mem_eraseP hd)⟩

/-- A new session has no signals yet. -/
theorem SignalsKept.create (g : Genode) (args : String) (core : Core)
    (hissued : ∀ cap ∈ issued, cap.localName < core.nextBadge) :
    SignalsKept (PdSessionComponent.create g false args core).2.nextBadge issued
        (PdSessionComponent.create g false args core).1 ∧
      core.nextBadge ≤ (PdSessionComponent.create g false args core).1.cap.localName := by
  have hcap : (PdSessionComponent.create g false args core).1.cap.localName =
      core.nextBadge + 6 := rfl
  have hnext : (PdSessionComponent.create g false args core).2.nextBadge =
      core.nextBadge + 7 := rfl
  refine ⟨⟨by omega, ⟨List.nodup_nil, List.nodup_nil, List.nodup_nil, ?_⟩, ?_, ?_, ?_⟩, by omega⟩
  · show [core.nextBadge, core.nextBadge + 2, core.nextBadge + 4].Nodup
    simp
  · intro s hs
    cases hs
  · intro c hc
    cases hc
  · intro cap hcap'
    have := hissued cap hcap'
    exact ⟨by omega, fun c hc => by cases hc⟩

end Kept

/-- **The invariant**: the sessions are distinct, the last one in the
list is the only one of bootstrap, and no signal source has the badge of
another object. -/
structure SignalWorld.Kept (w : SignalWorld) : Prop where
  distinct : (w.pdRoot.map (·.cap.localName)).Nodup
  sessions : ∀ pd ∈ w.pdRoot, SignalsKept w.core.nextBadge w.issued pd
  issued : ∀ cap ∈ w.issued, cap.localName < w.core.nextBadge ∧ cap.localName ∉ w.others
  others : ∀ b ∈ w.others, b < w.core.nextBadge
  boot : ∃ extras boot, w.pdRoot = extras ++ [boot] ∧ boot.parentState.bootstrapped = true ∧
    ∀ pd ∈ extras, pd.parentState.bootstrapped = false

/-- The child when bootstrap is over: one PD session, without signal
contexts. -/
structure SignalWorld.Initial (w : SignalWorld) : Prop where
  one : ∃ boot, w.pdRoot = [boot] ∧ boot.parentState.bootstrapped = true ∧
    boot.parentState.signalContexts = [] ∧ Checkpointer.PdDistinct boot ∧
    w.issued = boot.parentState.signalSources.map (·.cap) ∧
    boot.cap.localName < w.core.nextBadge ∧ boot.cap.localName ∉ w.issued.map (·.localName)
  issued : ∀ cap ∈ w.issued, cap.localName < w.core.nextBadge ∧ cap.localName ∉ w.others
  others : ∀ b ∈ w.others, b < w.core.nextBadge

theorem SignalWorld.Initial.kept {w : SignalWorld} (h : w.Initial) : w.Kept := by
  obtain ⟨⟨boot, hroot, hboot, hcontexts, hdistinct, hissued, hbadge, hapart⟩, hbelow, hothers⟩ :=
    h
  refine ⟨?_, ?_, hbelow, hothers, [], boot, hroot, hboot, by simp⟩
  · rw [hroot]
    exact List.nodup_singleton _
  · rw [hroot, List.forall_mem_singleton]
    refine ⟨hbadge, hdistinct, fun s hs => hissued ▸ List.mem_map_of_mem hs, ?_, fun cap hcap => ?_⟩
    · rw [hcontexts]
      simp
    · refine ⟨fun he => hapart ?_, by simp [hcontexts]⟩
      rw [← he]
      exact List.mem_map_of_mem hcap

/-- A call of the session `pd` that leaves it as `pd'`. -/
theorem SignalWorld.Kept.replace {l₁ l₂ : List PdSessionComponent} {pd pd' : PdSessionComponent}
    {core core' : Core} {issued issued' : List Cap} {others : List Nat}
    (h : SignalWorld.Kept ⟨l₁ ++ pd :: l₂, core, issued, others⟩) (hcap : pd'.cap = pd.cap)
    (hboot : pd'.parentState.bootstrapped = pd.parentState.bootstrapped)
    (hpd : SignalsKept core'.nextBadge issued' pd')
    (hrest : ∀ q, SignalsKept core.nextBadge issued q → SignalsKept core'.nextBadge issued' q)
    (hle : core.nextBadge ≤ core'.nextBadge)
    (hissued : ∀ cap ∈ issued', cap.localName < core'.nextBadge ∧ cap.localName ∉ others) :
    SignalWorld.Kept ⟨l₁ ++ pd' :: l₂, core', issued', others⟩ where
  distinct := by
    have hd := h.distinct
    simp only [List.map_append, List.map_cons] at hd ⊢
    rwa [hcap]
  sessions q hq := by
    rcases List.mem_replace (a := pd) hq with rfl | hq
    · exact hpd
    · exact hrest q (h.sessions q hq)
  issued := hissued
  others b hb := (h.others b hb).trans_le hle
  boot := by
    obtain ⟨extras, boot, hsplit, hb, hextras⟩ := h.boot
    change l₁ ++ pd :: l₂ = extras ++ [boot] at hsplit
    rcases List.eq_nil_or_concat l₂ with rfl | ⟨l, last, rfl⟩
    · -- the session of bootstrap itself
      obtain ⟨rfl, hlast⟩ := List.append_inj' hsplit rfl
      obtain rfl : pd = boot := by simpa using hlast
      exact ⟨l₁, pd', rfl, hboot.trans hb, hextras⟩
    · have hsplit' : l₁ ++ pd :: l ++ [last] = extras ++ [boot] := by simpa using hsplit
      obtain ⟨rfl, hlast⟩ := List.append_inj' hsplit' rfl
      obtain rfl : last = boot := by simpa using hlast
      refine ⟨l₁ ++ pd' :: l, last, by simp, hb, fun q hq => ?_⟩
      rcases List.mem_replace (a := pd) hq with rfl | hq
      · exact hboot.trans (hextras pd (by simp))
      · exact hextras q hq

/-- **One call** keeps the invariant. -/
theorem SignalStep.kept {g : Genode} {w w' : SignalWorld} {a : SignalCall}
    (h : SignalStep g w a w') (hw : w.Kept) : w'.Kept := by
  have hbelow : ∀ cap ∈ w.issued, cap.localName < w.core.nextBadge := fun cap hcap =>
    (hw.issued cap hcap).1
  cases h with
  | createSession pdRoot core issued others args =>
      obtain ⟨hnew, hfresh⟩ := SignalsKept.create g args core hbelow
      have hle : core.nextBadge ≤ (PdSessionComponent.create g false args core).2.nextBadge :=
        hfresh.trans hnew.badge.le
      obtain ⟨extras, boot, hsplit, hb, hextras⟩ := hw.boot
      change pdRoot = extras ++ [boot] at hsplit
      -- the session is listed in front, under a badge that no other has
      refine ⟨?_, ?_, fun cap hcap => ?_, fun b hb => (hw.others b hb).trans_le hle,
        _ :: extras, boot, by rw [hsplit]; rfl, hb, ?_⟩
      · refine List.nodup_cons.mpr ⟨fun hmem => ?_, hw.distinct⟩
        obtain ⟨q, hq, he⟩ := List.mem_map.mp hmem
        have hold : q.cap.localName < core.nextBadge := (hw.sessions q hq).badge
        have hsame : q.cap.localName =
          (PdSessionComponent.create g false args core).1.cap.localName := he
        omega
      · intro q hq
        rcases List.mem_cons.mp hq with rfl | hq
        · exact hnew
        · exact (hw.sessions q hq).mono hle
      · exact ⟨(hw.issued cap hcap).1.trans_le hle, (hw.issued cap hcap).2⟩
      · intro q hq
        rcases List.mem_cons.mp hq with rfl | hq
        · rfl
        · exact hextras q hq
  | allocSignalSource halloc =>
      rename_i l₁ l₂ pd pd' core core' issued others cap
      have hpd : SignalsKept core.nextBadge issued pd := hw.sessions pd (by simp)
      have hnew := hpd.allocSignalSource hbelow false
      rw [halloc] at hnew
      cases halloc
      refine hw.replace rfl rfl hnew (fun q hq => hq.issue) (Nat.le_succ _) fun cap hcap => ?_
      rcases List.mem_cons.mp hcap with rfl | hcap
      · exact ⟨Nat.lt_succ_self _, fun hother => (hw.others _ hother).ne rfl⟩
      · exact ⟨(hbelow cap hcap).trans (Nat.lt_succ_self _), (hw.issued cap hcap).2⟩
  | freeSignalSource l₁ l₂ pd core issued others cap =>
      have hpd : SignalsKept core.nextBadge issued pd := hw.sessions pd (by simp)
      exact hw.replace rfl rfl (hpd.freeSignalSource cap) (fun q hq => hq) (Nat.le_refl _) hw.issued
  | allocContext hsource halloc =>
      rename_i l₁ l₂ pd pd' core core' issued others source cap imprint
      have hpd : SignalsKept core.nextBadge issued pd := hw.sessions pd (by simp)
      have hnew := hpd.allocContext hbelow hsource imprint false
      rw [halloc] at hnew
      cases halloc
      exact hw.replace rfl rfl hnew (fun q hq => hq.mono (Nat.le_succ _)) (Nat.le_succ _)
        fun cap hcap => ⟨(hbelow cap hcap).trans (Nat.lt_succ_self _), (hw.issued cap hcap).2⟩
  | freeContext l₁ l₂ pd core issued others cap =>
      have hpd : SignalsKept core.nextBadge issued pd := hw.sessions pd (by simp)
      exact hw.replace rfl rfl (hpd.freeContext cap) (fun q hq => hq) (Nat.le_refl _) hw.issued
  | other pdRoot issued hle hothers =>
      rename_i core core' others others'
      refine ⟨hw.distinct, fun q hq => (hw.sessions q hq).mono hle,
        fun cap hcap => ⟨(hbelow cap hcap).trans_le hle, fun hmem => ?_⟩, fun b hb => ?_, hw.boot⟩
      · -- a new object has a badge that no source has yet
        have hold : cap.localName < core.nextBadge := hbelow cap hcap
        rcases hothers cap.localName hmem with hmem | ⟨hnew, -⟩
        · exact (hw.issued cap hcap).2 hmem
        · omega
      · rcases hothers b hb with hb | ⟨-, hb⟩
        · exact (hw.others b hb).trans_le hle
        · exact hb

/-- **Any calls** keep the invariant. -/
theorem SignalWorld.Kept.of_run {g : Genode} {w w' : SignalWorld} (h : w.Initial)
    (hrun : Run (SignalStep g) (fun _ _ => True) w w') : w'.Kept :=
  hrun.invariant (fun _ _ _ hw _ hstep => hstep.kept hw) h.kept

end Rtcr
