import Rtcr.Intercept.Objects
import Rtcr.Lib.Loop
import Rtcr.Util

/-!
# Restorer.State — the restorer's own data

The lists the phases of `restore()` share: the translation of checkpoint
badges to the child's capabilities, the kcaps of recreated objects, and
the work list of the memory phase. Objects of all kinds are identified or
created again in the same way (`RestoKind`), and their states restored in
the same way (`StateKind`).
-/

namespace Rtcr

open Fallible

structure Restorer where
  core : Core
  capabilityMapInfos : List CapKcapInfo
  ckptToRestoInfos : List CkptRestoBadgeInfo
  memoryToRestore : List OrigCopyInfo
  /-- badges of the stored region-map dataspaces -/
  regionMapDataspacesFromStored : List Nat

namespace Restorer

/-- The constructor. -/
def new (core : Core) : Restorer := ⟨core, [], [], [], []⟩

def addTranslation (ckptBadge : Nat) (restoCap : Cap) (r : Restorer) : Restorer :=
  { r with ckptToRestoInfos := ⟨ckptBadge, restoCap⟩ :: r.ckptToRestoInfos }

def addKcap (kcap : Nat) (cap : Cap) (r : Restorer) : Restorer :=
  { r with capabilityMapInfos := ⟨kcap, cap⟩ :: r.capabilityMapInfos }

def setCore (core : Core) (r : Restorer) : Restorer := { r with core := core }

/-- `find_by_ckpt_badge`. -/
def translate (r : Restorer) (badge : Nat) : Option Cap :=
  (findByBadge (·.ckptBadge) badge r.ckptToRestoInfos).map (·.restoCap)

/-- `_find_child_object`: the object may be missing, its translation may
not. -/
def findChildObject {χ : Type} (cap : χ → Cap) (badge : Nat) (objects : List χ) (r : Restorer) :
    Except Err (Option χ) :=
  match r.translate badge with
  | some restoCap => .ok (findByBadge (fun c => (cap c).localName) restoCap.localName objects)
  | none => .error (.exception ("Could not translate stored badge " ++ toString badge))

end Restorer

/-- What is thrown where a lookup fails. -/
def notFound (message : String) (badge : Nat) : Err := .exception (message ++ toString badge)

/-! ## Identify or recreate -/

/-- How the objects of one kind are identified or created again. -/
structure RestoKind (τ χ : Type) where
  badge : τ → Nat
  kcap : τ → Nat
  cap : χ → Cap
  /-- the capability of the object that is there already; `none`: it has
  to be created -/
  identify : τ → List χ → Except Err (Option Cap)
  recreate : τ → Restorer → Except Err (χ × Restorer)
  /-- what follows the translation of the object itself -/
  parts : τ → χ → Restorer → Except Err (χ × Restorer)

namespace RestoKind

variable {τ χ : Type}

/-- The translation of an object, then its parts. -/
def enter (k : RestoKind τ χ) (t : τ) (cap : Cap) (objects : List χ) (r : Restorer) :
    Except Err (List χ × Restorer) :=
  match findByBadge (fun c => (k.cap c).localName) cap.localName objects with
  | some c => do
      let c' ← k.parts t c (r.addTranslation (k.badge t) (k.cap c))
      .ok (List.modifyFirst (fun c => (k.cap c).localName == cap.localName) (fun _ => c'.1) objects,
        c'.2)
  | none => .error .nullPointer

/-- One stored object. -/
def step (k : RestoKind τ χ) (t : τ) (x : List χ × Restorer) : Except Err (List χ × Restorer) := do
  match ← k.identify t x.1 with
  | some cap => k.enter t cap x.1 x.2
  | none => do
      let c ← k.recreate t x.2
      k.enter t (k.cap c.1) (c.1 :: x.1) (c.2.addKcap (k.kcap t) (k.cap c.1))

/-- All stored objects, in the order they are stored. -/
def run (k : RestoKind τ χ) (stored : List τ) (objects : List χ) (r : Restorer) :
    Except Err (List χ × Restorer) :=
  loop k.step stored (objects, r)

end RestoKind

/-! ## Restore the state -/

/-- How the state of the objects of one kind is restored. `restore` gets
what `_find_child_object` returned. -/
structure StateKind (τ χ : Type) where
  badge : τ → Nat
  cap : χ → Cap
  restore : τ → Option χ → Restorer → Except Err (Option χ × Restorer)

namespace StateKind

variable {τ χ : Type}

def step (k : StateKind τ χ) (t : τ) (x : List χ × Restorer) :
    Except Err (List χ × Restorer) := do
  let c ← x.2.findChildObject k.cap (k.badge t) x.1
  let c' ← k.restore t c x.2
  match c'.1 with
  | some c₁ =>
      .ok (List.modifyFirst (fun c => (k.cap c).localName == (k.cap c₁).localName) (fun _ => c₁) x.1,
        c'.2)
  | none => .ok (x.1, c'.2)

def run (k : StateKind τ χ) (stored : List τ) (objects : List χ) (r : Restorer) :
    Except Err (List χ × Restorer) :=
  loop k.step stored (objects, r)

end StateKind

/-- The functions that end with an exception if the object is missing. -/
def ifPresent {τ χ : Type} (missing : τ → Err)
    (restore : τ → χ → Restorer → Except Err (χ × Restorer)) (t : τ) (object : Option χ)
    (r : Restorer) : Except Err (Option χ × Restorer) :=
  match object with
  | some c => (restore t c r).map fun c' => (some c'.1, c'.2)
  | none => .error (missing t)

end Rtcr
