/-!
Threads that share a state. A crowd holds the shared state and what is private to each thread; a
schedule says whose turn it is. In its turn a thread makes one atomic move, and a thread that
cannot move lets its turn pass, so every list of turns is a schedule and every interleaving has
one.
-/
namespace SyntaxDialects.Sharing

structure Crowd (σ τ : Type) where
  shared : σ
  threads : List τ

namespace Crowd

variable {σ τ : Type}

def turn (move : σ → τ → Option (σ × τ)) (crowd : Crowd σ τ) (number : Nat) : Crowd σ τ :=
  match crowd.threads[number]? with
  | none => crowd
  | some thread =>
    match move crowd.shared thread with
    | none => crowd
    | some (shared, thread) => ⟨shared, crowd.threads.set number thread⟩

def run (move : σ → τ → Option (σ × τ)) (schedule : List Nat) (crowd : Crowd σ τ) : Crowd σ τ :=
  schedule.foldl (turn move) crowd

end Crowd

def rotation (threads rounds : Nat) : List Nat :=
  (List.replicate rounds (List.range threads)).flatten

end SyntaxDialects.Sharing
