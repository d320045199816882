import SchedulerLearning.Fault

/-!
# Room for containers

A container is given room for all its entries at once. How large an entry is decides from
which number on they cannot be addressed together, which is a fault.
-/

namespace SchedulerLearning.Room

@[noinline] def addressable : Nat := 0x7fffffffffffffff

def most (entryBytes : Nat) : Nat := addressable / entryBytes

def claim (entryBytes count : Nat) : Except Fault Unit :=
  if most entryBytes < count then .error .capacity else .ok ()

end SchedulerLearning.Room
