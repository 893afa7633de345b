
namespace QuadStore

/-- A power of two, under a name of its own so that no proof unfolds it. -/
def twoPow (e : Nat) : Nat :=
  Nat.pow 2 e

/-- A power of ten, likewise. -/
def tenPow (e : Nat) : Nat :=
  Nat.pow 10 e

theorem tenPow_succ (e : Nat) : tenPow (e + 1) = 10 * tenPow e :=
  Nat.mul_comm (Nat.pow 10 e) 10

end QuadStore
