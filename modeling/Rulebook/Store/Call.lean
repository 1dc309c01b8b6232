import Rulebook.Run
import Rulebook.Store.FolderStore
import Rulebook.Store.Memory

/-!
# Calls of a repository

A call is one request to a repository, and every request has its own kind of answer.  To
open a repository again is a call too.  How that is done is the one thing that repositories
do not have in common: a store in a folder makes the folder of the rules once more, and a
store in memory stays as it is.

A store in a folder may read the folder of the rules in any order, and where none is said
it is the order of the names (`FolderStore.answerIn_given`).
-/

namespace Rulebook

/-- A request to a repository. -/
inductive StoreCall where
  /-- Save a rule. -/
  | save (rule : Rule)
  /-- List the rules. -/
  | rules
  /-- Find the rules of identifiers. -/
  | find (ids : List String)
  /-- Remove every rule. -/
  | clear
  /-- Open the repository again. -/
  | reopen

/-- What a repository answers. -/
inductive StoreAnswer where
  /-- A rule is saved. -/
  | saved (outcome : Except StoreError Unit)
  /-- The rules. -/
  | listed (outcome : Except StoreError (List Rule))
  /-- The rules of the identifiers. -/
  | found (outcome : Except StoreError (List Rule))
  /-- The number of rules that were removed. -/
  | cleared (outcome : Except StoreError Nat)
  /-- The repository is open. -/
  | opened (outcome : Except StoreError Unit)

/-- What a repository answers to a call, and the repository behind it. -/
def Repository.answer {σ : Type} [Repository σ] (reopen : σ → Except StoreError σ) (s : σ) :
    StoreCall → StoreAnswer × σ
  | .save rule => (.saved (save s rule).1, (save s rule).2)
  | .rules => (.listed (rules s), s)
  | .find ids => (.found (find s ids), s)
  | .clear => (.cleared (clear s).1, (clear s).2)
  | .reopen =>
      match reopen s with
      | .error e => (.opened (.error e), s)
      | .ok s => (.opened (.ok ()), s)

/-- What a store in a folder answers. -/
def FolderStore.answer (s : FolderStore) (call : StoreCall) : StoreAnswer × FolderStore :=
  Repository.answer (fun s => openAt s.root) s call

/-- What a store in a folder answers where the folder of the rules is read in some order. -/
def FolderStore.answerIn (order : ReadOrder String) (s : FolderStore) :
    StoreCall → StoreAnswer × FolderStore
  | .rules => (.listed (s.rulesIn order), s)
  | .clear => (.cleared (s.clearIn order).1, (s.clearIn order).2)
  | call => s.answer call

theorem FolderStore.answerIn_given (s : FolderStore) (call : StoreCall) :
    s.answerIn .given call = s.answer call := by
  cases call <;> rfl

/-- What a store in memory answers. -/
def MemoryStore.answer (s : MemoryStore) (call : StoreCall) : StoreAnswer × MemoryStore :=
  Repository.answer .ok s call

/-- Whether a call saves a rule whose identifier cannot be the name of a file. -/
def StoreCall.isRefused : StoreCall → Bool
  | .save rule => !FolderStore.isValidId rule.id
  | _ => false

end Rulebook
