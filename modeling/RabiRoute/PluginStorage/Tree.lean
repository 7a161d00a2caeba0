import Mathlib.Tactic.Common

/-!
# File trees and their digests

What a path of `pluginStorage.ts` names: a file, a symbolic link, or a directory with its entries in the
order of `readdirSync(…).sort()`; and `digestTree` over it.
-/

namespace RabiRoute.PluginStorage

/-- A file name has no separator and is not empty. -/
structure Name where
  text : List Char
  plain : '/' ∉ text
  ne_nil : text ≠ []
deriving DecidableEq

mutual

inductive Tree where
  | file (bytes : List UInt8)
  | link (target : List Char)
  /-- A pipe, a socket or a device. -/
  | special
  | dir (entries : Entries)
deriving DecidableEq

inductive Entries where
  | nil
  | cons (name : Name) (tree : Tree) (rest : Entries)

end

mutual

/-- `digestTree` and `cpSync` know all the types of file in the tree. -/
def Tree.supported : Tree → Bool
  | .special => false
  | .dir entries => entries.supported
  | _ => true

def Entries.supported : Entries → Bool
  | .nil => true
  | .cons _ tree rest => tree.supported && rest.supported

end

/-! ## Copies and removals that are cut -/

mutual

/-- What a recursive copy that is killed may have written of the tree. -/
def Tree.copied : Tree → Tree → Bool
  | .file part, .file bytes => part.isPrefixOf bytes
  | .link part, .link target => decide (part = target)
  | .dir part, .dir entries => part.copied entries
  | _, _ => false

def Entries.copied : Entries → Entries → Bool
  | .nil, _ => true
  | .cons _ _ _, .nil => false
  | .cons name part parts, .cons name' tree rest =>
    if name = name' then part.copied tree && parts.copied rest
    else (Entries.cons name part parts).copied rest

end

mutual

/-- What a recursive removal that is killed may have left of the tree. -/
def Tree.left : Tree → Tree → Bool
  | .dir part, .dir entries => part.left entries
  | part, tree => decide (part = tree)

def Entries.left : Entries → Entries → Bool
  | .nil, _ => true
  | .cons _ _ _, .nil => false
  | .cons name part parts, .cons name' tree rest =>
    if name = name' then part.left tree && parts.left rest
    else (Entries.cons name part parts).left rest

end

/-! ## The digest -/

def hexDigit (n : Nat) : Char := if n < 10 then Char.ofNat (48 + n) else Char.ofNat (87 + n)

/-- A character in a JSON string. -/
def escape (c : Char) : List Char :=
  if c = '"' then ['\\', '"']
  else if c = '\\' then ['\\', '\\']
  else if c.toNat = 8 then ['\\', 'b']
  else if c.toNat = 12 then ['\\', 'f']
  else if c.toNat = 10 then ['\\', 'n']
  else if c.toNat = 13 then ['\\', 'r']
  else if c.toNat = 9 then ['\\', 't']
  else if c.toNat < 32 then ['\\', 'u', '0', '0', hexDigit (c.toNat / 16), hexDigit (c.toNat % 16)]
  else [c]

def quote (text : List Char) : List Char := '"' :: (text.flatMap escape ++ ['"'])

/-- What the digest takes of a node before its bytes or its entries. -/
inductive Header where
  | link (target : List Char)
  | directory
  | file (size : Nat)
deriving DecidableEq

def Header.tail : Header → List Char
  | .link target => quote "link".toList ++ ',' :: quote target
  | .directory => quote "directory".toList
  | .file size => Nat.toDigits 10 size

/-- `JSON.stringify([relative, …])`. -/
def Header.text (relative : List Char) (header : Header) : List Char :=
  '[' :: (quote relative ++ ',' :: (header.tail ++ [']']))

def utf8 (text : List Char) : List UInt8 := text.flatMap String.utf8EncodeChar

/-- `path.join(relative, name)`. -/
def join (relative : List Char) (name : Name) : List Char :=
  if relative = [] then name.text else relative ++ '/' :: name.text

mutual

/-- The bytes that `visit` gives to the digest. -/
def Tree.stream (relative : List Char) : Tree → List UInt8
  | .file bytes => utf8 (Header.text relative (.file bytes.length)) ++ bytes
  | .link target => utf8 (Header.text relative (.link target))
  | .special => []
  | .dir entries => utf8 (Header.text relative .directory) ++ entries.stream relative

def Entries.stream (relative : List Char) : Entries → List UInt8
  | .nil => []
  | .cons name tree rest => tree.stream (join relative name) ++ rest.stream relative

end

/-- It throws where the tree holds a file of an unsupported type. -/
def digestTree {Digest : Type} (sha256 : List UInt8 → Digest) (root : Tree) : Option Digest :=
  if root.supported then some (sha256 (root.stream [])) else none

end RabiRoute.PluginStorage
