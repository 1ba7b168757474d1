import Interpose.Handle

/-!
# Kinds of natives

Functions that scripts can call. The ones built in act on pooled strings, on tasks, or hand the calling instance to the
thread system; the host adds its own. What the built-in ones do is defined with the world they act on; here are their
names, and the modules in which they are registered.
-/

namespace Interpose

/-- The natives on pooled strings. -/
inductive StringNative
  | new
  | newArray
  | newBuffer
  | address
  | recordAddress
  | acquire
  | release
  | delete
  | valid
  | clone
  | length
  | get
  | getCell
  | setCell
  | append
  | concat
  | resize
  | clear
  | toUpper
  | toLower
deriving DecidableEq

namespace StringNative

/-- The name a script calls a native by. -/
def name : StringNative → String
  | new => "str_new"
  | newArray => "str_new_arr"
  | newBuffer => "str_new_buf"
  | address => "str_addr"
  | recordAddress => "str_buf_addr"
  | acquire => "str_acquire"
  | release => "str_release"
  | delete => "str_delete"
  | valid => "str_valid"
  | clone => "str_clone"
  | length => "str_len"
  | get => "str_get"
  | getCell => "str_getc"
  | setCell => "str_setc"
  | append => "str_append"
  | concat => "str_cat"
  | resize => "str_resize"
  | clear => "str_clear"
  | toUpper => "str_to_upper"
  | toLower => "str_to_lower"

/-- All of them, in the order of registration. -/
def all : List StringNative :=
  [new, newArray, newBuffer, address, recordAddress, acquire, release, delete, valid, clone, length, get, getCell,
    setCell, append, concat, resize, clear, toUpper, toLower]

theorem mem_all (n : StringNative) : n ∈ all := by
  cases n <;> decide

end StringNative

/-- The natives on tasks. -/
inductive TaskNative
  | new
  | setResult
  | getResult
  | valid
  | await
deriving DecidableEq

namespace TaskNative

/-- The name a script calls a native by. -/
def name : TaskNative → String
  | new => "task_new"
  | setResult => "task_set_result"
  | getResult => "task_get_result"
  | valid => "task_valid"
  | await => "task_await"

/-- All of them, in the order of registration. -/
def all : List TaskNative :=
  [new, setResult, getResult, valid, await]

theorem mem_all (n : TaskNative) : n ∈ all := by
  cases n <;> decide

end TaskNative

/-- What runs when a script calls a native. A built-in native belongs to the hook layer it was registered for. -/
inductive Native
  | string (k : SubsystemId) (n : StringNative)
  | task (k : SubsystemId) (n : TaskNative)
  | detach (k : SubsystemId)
  | host (code : Code)
deriving DecidableEq

/-- A group of built-in natives that is registered together. -/
inductive NativeModule
  | string
  | task
  | thread
  | all
deriving DecidableEq

/-- The natives on strings with their names, for one hook layer. -/
def StringNative.natives (k : SubsystemId) : List (String × Native) :=
  all.map fun n => (n.name, .string k n)

/-- The natives on tasks with their names, for one hook layer. -/
def TaskNative.natives (k : SubsystemId) : List (String × Native) :=
  all.map fun n => (n.name, .task k n)

/-- The natives of a module with their names, for one hook layer. -/
def NativeModule.natives (k : SubsystemId) : NativeModule → List (String × Native)
  | string => StringNative.natives k
  | task => TaskNative.natives k
  | thread => [("thread_detach", .detach k)]
  | all => StringNative.natives k ++ TaskNative.natives k ++ [("thread_detach", .detach k)]

end Interpose
