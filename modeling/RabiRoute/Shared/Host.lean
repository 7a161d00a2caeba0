import Mathlib.Algebra.BigOperators.Group.Finset.Piecewise
import Mathlib.Algebra.Order.BigOperators.Group.Finset
import Mathlib.Algebra.Order.Field.Rat
import Mathlib.Data.List.Sort
import Mathlib.Data.List.TakeWhile
import Mathlib.Tactic.Common

/-!
# Hosts, processes and calls

What the file protocols of one host share: the processes that `process.kill(pid, 0)` asks about,
the calls that run in them, and the size of a number in a JSON text.
-/

namespace RabiRoute

abbrev CallId := Nat
abbrev Pid := Nat
/-- A host name, compared in lower case (host names are ASCII). -/
abbrev HostName := List Char

def HostName.lower (host : HostName) : HostName := host.map Char.toLower

def digits (n : Nat) : Nat := (Nat.toDigits 10 n).length

end RabiRoute
