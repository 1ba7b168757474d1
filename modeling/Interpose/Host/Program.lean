import Interpose.Host.Operation

/-!
# Programs of the host

The bodies of script functions, natives, callbacks and handlers are host code. A `Program` is such code as data: it is
finished, or it does one thing and goes on with the answer. It can look at the whole world, change the host's own
state, perform an operation, execute a function, or call a native as a script does. Because programs are data, a
statement about every behaviour of a host is a statement about every program.

Main definitions: `Program` with its sequencing, and `Program.Uses`, that a program asks for allowed things only.
-/

namespace Interpose

/-- What an execute call answers: how it went, and what stands in the caller's place for a result, if there is one. -/
structure ExecReply where
  status : Except Status Unit
  slot : Option Cell

/-- Host code. -/
inductive Program (σ α : Type) : Type
  /-- Finished. -/
  | done (a : α)
  /-- Look at the world. -/
  | look (next : World σ → Program σ α)
  /-- Change the host's own state. -/
  | remember (change : σ → σ) (next : Program σ α)
  /-- Perform an operation. -/
  | act (o : Operation) (next : o.Reply → Program σ α)
  /-- Execute an index through the table, with a place for the result or without. -/
  | exec (i : InstanceId) (slot : Option Cell) (index : Cell) (next : ExecReply → Program σ α)
  /-- Call a native by its index through the callback that the instance has now. -/
  | call (i : InstanceId) (index : Cell) (params : List Cell) (next : Except Status Cell → Program σ α)

namespace Program

variable {σ α β γ : Type}

/-- One program after another. -/
def andThen (p : Program σ α) (next : α → Program σ β) : Program σ β :=
  match p with
  | done a => next a
  | look k => look fun w => (k w).andThen next
  | remember f p => remember f (p.andThen next)
  | act o k => act o fun r => (k r).andThen next
  | exec i slot index k => exec i slot index fun r => (k r).andThen next
  | call i index params k => call i index params fun r => (k r).andThen next

instance : Monad (Program σ) where
  pure := done
  bind := andThen

theorem andThen_done (p : Program σ α) : p.andThen done = p := by
  induction p with
  | done a => rfl
  | look k ih => exact congrArg look (funext ih)
  | remember f p ih => exact congrArg (remember f) ih
  | act o k ih => exact congrArg (act o) (funext ih)
  | exec i slot index k ih => exact congrArg (exec i slot index) (funext ih)
  | call i index params k ih => exact congrArg (call i index params) (funext ih)

theorem andThen_assoc (p : Program σ α) (f : α → Program σ β) (g : β → Program σ γ) :
    (p.andThen f).andThen g = p.andThen fun a => (f a).andThen g := by
  induction p with
  | done a => rfl
  | look k ih => exact congrArg look (funext ih)
  | remember h p ih => exact congrArg (remember h) ih
  | act o k ih => exact congrArg (act o) (funext ih)
  | exec i slot index k ih => exact congrArg (exec i slot index) (funext ih)
  | call i index params k ih => exact congrArg (call i index params) (funext ih)

/-! ## Single steps -/

/-- The world as it is. -/
def world : Program σ (World σ) :=
  look done

/-- Changes the host's own state. -/
def modifyHost (change : σ → σ) : Program σ Unit :=
  remember change (done ())

/-- Performs an operation. -/
def perform (o : Operation) : Program σ o.Reply :=
  act o done

/-- Executes an index with a place for the result, and answers the result. -/
def execute (i : InstanceId) (index : Cell) : Program σ (Except Status Cell) :=
  exec i (some 0) index fun r => done (r.status.map fun _ => r.slot.getD 0)

/-- Executes an index with a place for the result that holds `slot`, or without one. -/
def executeInto (i : InstanceId) (slot : Option Cell) (index : Cell) : Program σ ExecReply :=
  exec i slot index done

/-- Looks a function up by name and executes it. -/
def executeNamed (i : InstanceId) (name : String) : Program σ (Except Status Cell) :=
  act (.lookup i name) fun
    | .ok index => execute i index
    | .error s => done (.error s)

/-- Calls a native by its index. -/
def callIndex (i : InstanceId) (index : Cell) (params : List Cell) : Program σ (Except Status Cell) :=
  call i index params done

/-- Calls a native by name, as a script does. -/
def callNamed (i : InstanceId) (name : String) (params : List Cell) : Program σ (Except Status Cell) :=
  act (.findNative i name) fun
    | some index => callIndex i index params
    | none => done (.error .notFound)

/-! ## Classes of programs -/

/-- What a program may do. -/
structure Allowed (σ : Type) where
  look : Prop
  remember : (σ → σ) → Prop
  act : Operation → Prop
  exec : InstanceId → Option Cell → Cell → Prop
  call : InstanceId → Cell → List Cell → Prop

/-- Whether a program does only what it may, whatever answers it gets. -/
def Uses (allowed : Allowed σ) : Program σ α → Prop
  | done _ => True
  | look k => allowed.look ∧ ∀ w, (k w).Uses allowed
  | remember f p => allowed.remember f ∧ p.Uses allowed
  | act o k => allowed.act o ∧ ∀ r, (k r).Uses allowed
  | exec i slot index k => allowed.exec i slot index ∧ ∀ r, (k r).Uses allowed
  | call i index params k => allowed.call i index params ∧ ∀ r, (k r).Uses allowed

theorem Uses.andThen {allowed : Allowed σ} {p : Program σ α} {next : α → Program σ β} (hp : p.Uses allowed)
    (hnext : ∀ a, (next a).Uses allowed) : (p.andThen next).Uses allowed := by
  induction p with
  | done a => exact hnext a
  | look k ih => exact ⟨hp.1, fun w => ih w (hp.2 w)⟩
  | remember f p ih => exact ⟨hp.1, ih hp.2⟩
  | act o k ih => exact ⟨hp.1, fun r => ih r (hp.2 r)⟩
  | exec i slot index k ih => exact ⟨hp.1, fun r => ih r (hp.2 r)⟩
  | call i index params k ih => exact ⟨hp.1, fun r => ih r (hp.2 r)⟩

end Program

end Interpose
