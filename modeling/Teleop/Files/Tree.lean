import Teleop.Bytes
import Teleop.Fault
import Teleop.Files.Path

/-!
# File trees

A tree of files and directories that belong to users, and a working directory. There are no links,
and of a mode only the nine permission bits count. A call is made by a user, and by root where it
names none.
-/

namespace Teleop

/-! ## Who may do what -/

structure User where
  id : Nat
  group : Nat
  /-- The groups besides that one. -/
  groups : List Nat := []
deriving DecidableEq, Repr

/-- The user who may do everything. -/
def User.root : User where
  id := 0
  group := 0

def User.isRoot (user : User) : Bool := user.id == 0

/-- Whose a node is, and its mode. -/
structure Access where
  mode : Nat
  owner : Nat := 0
  group : Nat := 0
deriving DecidableEq, Repr

/-- A mode alone is that of a node of root. -/
instance (mode : Nat) : OfNat Access mode := ⟨{ mode }⟩

/-- What a user makes is his own. -/
def User.owning (user : User) (mode : Nat) : Access where
  mode := mode
  owner := user.id
  group := user.group

inductive Permission where
  | read
  | write
  /-- To go on from a directory to what is in it. -/
  | search
deriving DecidableEq, Repr

def Permission.bit : Permission → Nat
  | search => 0
  | write => 1
  | read => 2

namespace Access

def isOwnedBy (a : Access) (user : User) : Bool := user.id == a.owner

/-- The first of the three bits that count for a user. Those of the group do not count for the
owner, and those of the others count for nobody else. -/
def firstBit (a : Access) (user : User) : Nat :=
  if a.isOwnedBy user then 6
  else if user.group = a.group ∨ a.group ∈ user.groups then 3
  else 0

def allows (a : Access) (user : User) (p : Permission) : Bool :=
  user.isRoot || a.mode.testBit (a.firstBit user + p.bit)

/-- Only the owner and root change a mode. -/
def isChangeableBy (a : Access) (user : User) : Bool := user.isRoot || a.isOwnedBy user

theorem allows_of_isRoot {user : User} (h : user.isRoot = true) (a : Access) (p : Permission) :
    a.allows user p = true := by
  simp [allows, h]

@[simp] theorem allows_root (a : Access) (p : Permission) : a.allows .root p = true :=
  allows_of_isRoot rfl a p

theorem allows_of_isChangeableBy {a : Access} {user : User} {p : Permission}
    (h : a.isChangeableBy user = true) (hmode : a.mode.testBit (6 + p.bit) = true) :
    a.allows user p = true := by
  rcases (Bool.or_eq_true _ _).mp h with hroot | howner
  · exact allows_of_isRoot hroot a p
  · simp [allows, firstBit, howner, hmode]

theorem allows_owning (user : User) {mode : Nat} {p : Permission}
    (hmode : mode.testBit (6 + p.bit) = true) : (user.owning mode).allows user p = true :=
  allows_of_isChangeableBy (by simp [isChangeableBy, isOwnedBy, User.owning]) hmode

end Access

/-! ## Trees -/

inductive Node where
  | file (content : Bytes) (access : Access)
  | directory (access : Access)
deriving DecidableEq, Repr

def Node.isDirectory : Node → Bool
  | directory _ => true
  | file .. => false

def Node.mode : Node → Nat
  | directory access | file _ access => access.mode

/-- The names from the root to a node. -/
abbrev Location := List String

structure FileTree where
  workingDirectory : Location := []
  nodes : List (Location × Node) := []
deriving DecidableEq, Repr

namespace FileTree

/-- The root is always there. -/
def get? (t : FileTree) (l : Location) : Option Node :=
  if l = [] then some (.directory 0o755) else t.nodes.lookup l

/-- Puts a node in its place, over the one that is there. -/
def put (t : FileTree) (l : Location) (n : Node) : FileTree :=
  { t with nodes := (l, n) :: t.nodes.filter (·.1 != l) }

theorem get?_put_self (t : FileTree) {l : Location} (n : Node) (h : l ≠ []) :
    (t.put l n).get? l = some n := by
  simp [get?, put, h]

theorem get?_put_ne (t : FileTree) {l l' : Location} (n : Node) (h : l' ≠ l) :
    (t.put l n).get? l' = t.get? l' := by
  have key : ∀ nodes : List (Location × Node),
      (nodes.filter (·.1 != l)).lookup l' = nodes.lookup l' := by
    intro nodes
    induction nodes with
    | nil => rfl
    | cons entry rest ih =>
      obtain ⟨k, v⟩ := entry
      by_cases hk : k = l
      · subst hk
        have hk : (l' == k) = false := by simpa using h
        rw [List.filter_cons_of_neg (by simp), List.lookup_cons, hk, ih]
      · rw [List.filter_cons_of_pos (by simpa using hk)]
        simp only [List.lookup_cons, ih]
  have hl : (l' == l) = false := by simpa using h
  unfold get?
  split
  · rfl
  · rw [put, List.lookup_cons, hl, key]

/-! ## Looking up -/

/-- The longest name that a directory takes, in bytes. -/
def longestName : Nat := 255

/-- The longest path that a call takes, in bytes. -/
def longestPath : Nat := 4095

/-- Follows `names` from `here`. Every place that is passed has to be a directory that the user may
search; the last one need not be there. -/
def follow (t : FileTree) (user : User) (here : Location) :
    List String → Except SystemError Location
  | [] => .ok here
  | name :: names =>
    match t.get? here with
    | none => .error .noEntry
    | some (.file ..) => .error .notDirectory
    | some (.directory access) =>
      if !access.allows user .search then .error .denied
      else if longestName < name.utf8ByteSize then .error .nameTooLong
      else if name = "." then t.follow user here names
      else if name = ".." then t.follow user here.dropLast names
      else t.follow user (here ++ [name]) names

/-- The place that a path names, whether or not something is there. -/
def locate (t : FileTree) (p : Path) (user : User := .root) : Except SystemError Location :=
  if p.toList.contains '\x00' then .error .nulInName
  else if p = "" then .error .noEntry
  else if longestPath < p.utf8ByteSize then .error .nameTooLong
  else t.follow user (if Path.isAbsolute p then [] else t.workingDirectory) (Path.components p)

/-- The node at a path. Its own mode does not matter, only the way to it. -/
def lookup (t : FileTree) (p : Path) (user : User := .root) : Except SystemError Node :=
  match t.locate p user with
  | .error e => .error e
  | .ok l =>
    match t.get? l with
    | none => .error .noEntry
    | some (.file content access) =>
      if Path.endsInSlash p then .error .notDirectory else .ok (.file content access)
    | some (.directory access) => .ok (.directory access)

/-- The user sees that something is at the path. If he is kept from looking then he sees nothing. -/
def holds (t : FileTree) (p : Path) (user : User := .root) : Bool := (t.lookup p user).isOk

theorem lookup_eq_ok {t : FileTree} {p : Path} {user : User} {n : Node} :
    t.lookup p user = .ok n ↔ ∃ l, t.locate p user = .ok l ∧ t.get? l = some n ∧
      (Path.endsInSlash p = true → n.isDirectory = true) := by
  unfold lookup
  constructor
  · intro h
    split at h
    · cases h
    · rename_i l hlocate
      split at h
      · cases h
      · rename_i hnode
        split at h
        · cases h
        · rename_i hslash
          cases h
          exact ⟨l, hlocate, hnode, fun hends => absurd hends hslash⟩
      · rename_i hnode
        cases h
        exact ⟨l, hlocate, hnode, fun _ => rfl⟩
  · rintro ⟨l, hlocate, hnode, hdir⟩
    simp only [hlocate, hnode]
    cases n with
    | directory access => rfl
    | file content access => exact if_neg fun hends => nomatch hdir hends

theorem holds_iff {t : FileTree} {p : Path} {user : User} :
    t.holds p user = true ↔ ∃ n, t.lookup p user = .ok n := by
  unfold holds
  cases t.lookup p user <;> simp [Except.isOk, Except.toBool]

def isDirectory (t : FileTree) (p : Path) (user : User := .root) : Bool :=
  match t.lookup p user with
  | .ok n => n.isDirectory
  | .error _ => false

/-- What a whole file holds. -/
def read (t : FileTree) (p : Path) (user : User := .root) : Except SystemError Bytes :=
  match t.lookup p user with
  | .error e => .error e
  | .ok (.directory access) => .error (if access.allows user .read then .isDirectory else .denied)
  | .ok (.file content access) => if access.allows user .read then .ok content else .error .denied

/-! ## Changing -/

/-- Makes one directory. -/
def makeDirectory (t : FileTree) (p : Path) (user : User := .root) : Except SystemError FileTree :=
  match t.locate p user with
  | .error e => .error e
  | .ok l =>
    match t.get? l with
    | some _ => .error .alreadyExists
    | none =>
      match t.get? l.dropLast with
      | some (.directory above) =>
        if above.allows user .write then .ok (t.put l (.directory (user.owning 0o755)))
        else .error .denied
      | some (.file ..) => .error .notDirectory
      | none => .error .noEntry

/-- Makes the first of the paths, after the others if it needs them. The empty path is there already.
What was made stays when a later step fails. -/
def makeDirectoryChain (t : FileTree) (user : User) : List Path → Option SystemError × FileTree
  | [] => (none, t)
  | p :: above =>
    if p = "" then (none, t)
    else
      match t.makeDirectory p user with
      | .ok t => (none, t)
      | .error .noEntry =>
        match t.makeDirectoryChain user above with
        | (some e, t) => (some e, t)
        | (none, t) =>
          match t.makeDirectory p user with
          | .ok t => (none, t)
          | .error e => (if t.isDirectory p user then none else some e, t)
      | .error e => (if t.isDirectory p user then none else some e, t)

/-- Makes a directory and all that are missing above it. -/
def makeDirectories (t : FileTree) (p : Path) (user : User := .root) :
    Option SystemError × FileTree :=
  t.makeDirectoryChain user (Path.selfAndAbove p)

/-- Writes a whole file. A new one gets the mode and belongs to the user; one that is there stays
whose it is and keeps its mode. -/
def write (t : FileTree) (p : Path) (content : Bytes) (mode : Nat) (user : User := .root) :
    Except SystemError FileTree :=
  match t.locate p user with
  | .error e => .error e
  | .ok l =>
    match t.get? l with
    | some (.directory _) => .error .isDirectory
    | some (.file _ old) =>
      if Path.endsInSlash p then .error .isDirectory
      else if old.allows user .write then .ok (t.put l (.file content old))
      else .error .denied
    | none =>
      match t.get? l.dropLast with
      | some (.directory above) =>
        if Path.endsInSlash p then .error .isDirectory
        else if above.allows user .write then .ok (t.put l (.file content (user.owning mode)))
        else .error .denied
      | some (.file ..) => .error .notDirectory
      | none => .error .noEntry

/-- The mode of files that are made without one. -/
def plainMode : Nat := 0o644

def setMode (t : FileTree) (p : Path) (mode : Nat) (user : User := .root) :
    Except SystemError FileTree :=
  match t.locate p user, t.lookup p user with
  | .error e, _ => .error e
  | .ok _, .error e => .error e
  | .ok l, .ok (.file content access) =>
    if access.isChangeableBy user then .ok (t.put l (.file content { access with mode }))
    else .error .notPermitted
  | .ok l, .ok (.directory access) =>
    if access.isChangeableBy user then
      .ok (if l = [] then t else t.put l (.directory { access with mode }))
    else .error .notPermitted

/-! ## Listing -/

/-- The names that lead from one place to another below it. -/
def Location.below? (root l : Location) : Option (List String) :=
  if root.isPrefixOf l then some (l.drop root.length) else none

/-- The files below a place, with their paths from there, sorted by path. -/
def filesBelow (t : FileTree) (root : Location) : List (Path × Bytes) :=
  let files := t.nodes.filterMap fun (l, n) =>
    match n, Location.below? root l with
    | .file content _, some names => some ("/".intercalate names, content)
    | _, _ => none
  files.mergeSort fun a b => a.1 ≤ b.1

end FileTree

end Teleop
