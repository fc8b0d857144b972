import DatumConnect.Lib.Restarts
import DatumConnect.Pairing.Provision
/-!
# The runs of pairing on one key path

Runs of `pair` follow one another, each on what the ones before it have left: the key
file, the record of an unfinished pairing, and the service accounts that were made.
The server and the login service answer in any way; a run may be stopped before any
of its calls.  Others may delete an account, and put a file at the key path or take
one away from there, at any time.
-/

namespace DatumConnect.Pairing

open DatumConnect.Lib

/-- A service account that pairing has made. -/
structure Account where
  project : String
  name : String
  uid : String
  deriving DecidableEq, Repr

/-- The key file and the record next to it. -/
structure Files where
  keyOut : Option String
  pending : Option Pending
  deriving DecidableEq, Repr

inductive Entry where
  | began
  /-- A call, its reply, and the files before it. -/
  | did (c : PairCall) (r : c.Reply) (files : Files)
  | ended (result : Except PairingError PairedKey) (files : Files)

/-- A key that was saved, and the account it was asked for. -/
structure SavedKey where
  key : String
  account : Option ServiceAccountRef
  deriving DecidableEq, Repr

/-- What there is, and what has happened. -/
structure Place where
  files : Files
  /-- The accounts made so far that still exist. -/
  accounts : List Account := []
  /-- The last key that was saved. -/
  saved : Option SavedKey := none
  log : List Entry := []

inductive Meanwhile where
  | deleteAccount (account : Account)
  | putKey (text : String)
  | takeKey
  deriving DecidableEq, Repr

/-- How a call goes: what others have done before it, whether the record can be read,
the uid of the account the server makes, if it makes one, and the reply of all that
does not depend on the files. -/
structure Answer where
  meanwhile : List Meanwhile := []
  readable : Bool := true
  made : Option { uid : String // uid ≠ "" } := none
  reply : (c : PairCall) → c.Reply

/-- What a call that is answered so does to the files. -/
def Files.after (f : Files) : (c : PairCall) → c.Reply → Files
  | .writePending p, .ok () => { f with pending := some p }
  | .removePending, .ok () => { f with pending := none }
  | .writeKey key, .ok () => { f with keyOut := some key }
  | _, _ => f

namespace Place

variable (s : Place)

def apply : Meanwhile → Place
  | .deleteAccount account => { s with accounts := s.accounts.erase account }
  | .putKey text => { s with files := { s.files with keyOut := some text } }
  | .takeKey => { s with files := { s.files with keyOut := none } }

def applyAll (acts : List Meanwhile) : Place := acts.foldl apply s

def note (e : Entry) : Place := { s with log := s.log ++ [e] }

def reply (answer : Answer) : (c : PairCall) → c.Reply
  | .keyOutExists => s.files.keyOut.isSome
  | .readPending => if answer.readable then s.files.pending else none
  | c => answer.reply c

/-- The account the last key that was asked for is to be for. -/
def keyAccount : Option ServiceAccountRef :=
  s.log.reverse.findSome? fun
    | .did (.api _ (.createServiceAccountKey _ _ sa _)) _ _ => some sa
    | _ => none

def savedAfter : (c : PairCall) → c.Reply → Option SavedKey
  | .writeKey key, .ok () => some { key, account := s.keyAccount }
  | _, _ => s.saved

end Place

def Answer.makes (answer : Answer) : PairCall → Option Account
  | .api _ (.createServiceAccount project name _) =>
      answer.made.map fun uid => { project, name, uid := uid.val }
  | _ => none

/-- The call is carried out, with this reply. -/
def Place.carryOut (s : Place) (answer : Answer) (c : PairCall) (r : c.Reply) : Place where
  files := s.files.after c r
  accounts := s.accounts ++ (answer.makes c).toList
  saved := s.savedAfter c r
  log := s.log ++ [.did c r s.files]

def Place.handle (s : Place) (c : PairCall) (answer : Answer) : Place × c.Reply :=
  let t := s.applyAll answer.meanwhile
  (t.carryOut answer c (t.reply answer c), t.reply answer c)

/-- A run of `pair`. -/
structure Begin where
  cfg : PairingConfig
  rounds : Nat

abbrev Act := Restarts.Act Answer Begin Meanwhile

abbrev World := Restarts.World Place PairCall PairCall.Reply (Except PairingError PairedKey)

def host (lib : Libraries) :
    Restarts.Host Place Answer Begin Meanwhile PairCall PairCall.Reply
      (Except PairingError PairedKey) where
  handle := Place.handle
  start b := pair lib b.cfg b.rounds
  began s _ := s.note .began
  ended s result := s.note (.ended result s.files)
  meanwhile := Place.apply

/-- Nothing has happened yet. -/
def World.fresh (keyOut : Option String) : World where
  state := { files := { keyOut, pending := none } }
  run := none

/-! ## Small rules -/

namespace Place

variable {s : Place}

@[simp] theorem apply_pending (m : Meanwhile) : (s.apply m).files.pending = s.files.pending := by
  cases m <;> rfl

@[simp] theorem apply_saved (m : Meanwhile) : (s.apply m).saved = s.saved := by
  cases m <;> rfl

@[simp] theorem apply_log (m : Meanwhile) : (s.apply m).log = s.log := by
  cases m <;> rfl

theorem apply_accounts (m : Meanwhile) : (s.apply m).accounts.Sublist s.accounts := by
  cases m with
  | deleteAccount account => exact List.erase_sublist
  | putKey text => exact List.Sublist.refl _
  | takeKey => exact List.Sublist.refl _

@[simp] theorem applyAll_pending (acts : List Meanwhile) :
    (s.applyAll acts).files.pending = s.files.pending := by
  induction acts generalizing s with
  | nil => rfl
  | cons m acts ih => exact (ih (s := s.apply m)).trans (apply_pending m)

@[simp] theorem applyAll_saved (acts : List Meanwhile) : (s.applyAll acts).saved = s.saved := by
  induction acts generalizing s with
  | nil => rfl
  | cons m acts ih => exact (ih (s := s.apply m)).trans (apply_saved m)

@[simp] theorem applyAll_log (acts : List Meanwhile) : (s.applyAll acts).log = s.log := by
  induction acts generalizing s with
  | nil => rfl
  | cons m acts ih => exact (ih (s := s.apply m)).trans (apply_log m)

theorem applyAll_accounts (acts : List Meanwhile) :
    (s.applyAll acts).accounts.Sublist s.accounts := by
  induction acts generalizing s with
  | nil => exact List.Sublist.refl _
  | cons m acts ih => exact (ih (s := s.apply m)).trans (apply_accounts m)

end Place

end DatumConnect.Pairing
