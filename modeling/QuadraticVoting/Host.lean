/-!
# Hosts

The library runs on a host that has only so much room for values that lie in one another, and only
so much memory. How much that is, is up to the host: the results hold for every one. `Host.usual`
is the one on which examples are worked out.
-/

namespace QuadraticVoting

class Host where
  /-- In how many lists and tables a value may lie if it is to be written. -/
  depth : Nat
  /-- The room there is for values that lie in one another in a file. -/
  fileRoom : Nat
  /-- How long a text may be. -/
  memory : Nat

instance Host.usual : Host := ⟨990, 990, 0x1000000000⟩

end QuadraticVoting
