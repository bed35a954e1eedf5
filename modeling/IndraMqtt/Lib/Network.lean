import Mathlib.Data.List.Basic

/-! Peers that exchange letters. Every letter that was ever sent stays available, so that a
network that loses, repeats and reorders letters is one that delivers some of them. A log records
what has happened and is read by no peer. -/
namespace Network

/-- The peers with everything that was sent and what is recorded of the past. -/
structure World (Id Peer Letter Entry : Type) where
  peers : Id → Peer
  sent : List Letter
  log : List Entry

/-- What one peer does at once: its next state, the letters it sends and what is recorded. -/
structure Reaction (Peer Letter Entry : Type) where
  peer : Peer
  sends : List Letter
  entries : List Entry

namespace World

variable {Id Peer Letter Entry : Type} [DecidableEq Id]

def act (world : World Id Peer Letter Entry) (id : Id) (reaction : Reaction Peer Letter Entry) :
    World Id Peer Letter Entry where
  peers := Function.update world.peers id reaction.peer
  sent := world.sent ++ reaction.sends
  log := world.log ++ reaction.entries

variable {world : World Id Peer Letter Entry} {id : Id} {reaction : Reaction Peer Letter Entry}

@[simp] theorem peers_act_self : (world.act id reaction).peers id = reaction.peer :=
  Function.update_self ..

theorem peers_act_of_ne {other : Id} (hNe : other ≠ id) :
    (world.act id reaction).peers other = world.peers other :=
  Function.update_of_ne hNe ..

theorem log_subset_act : world.log ⊆ (world.act id reaction).log := List.subset_append_left ..

/-- Every peer and every letter has what the log must hold for it. -/
structure Explained (peerOk : List Entry → Id → Peer → Prop)
    (letterOk : List Entry → Letter → Prop) (world : World Id Peer Letter Entry) : Prop where
  peers : ∀ id, peerOk world.log id (world.peers id)
  letters : ∀ letter ∈ world.sent, letterOk world.log letter

theorem Explained.act {peerOk : List Entry → Id → Peer → Prop}
    {letterOk : List Entry → Letter → Prop} (hExplained : world.Explained peerOk letterOk)
    (hPeerMono : ∀ log log' id peer, log ⊆ log' → peerOk log id peer → peerOk log' id peer)
    (hLetterMono : ∀ log log' letter, log ⊆ log' → letterOk log letter → letterOk log' letter)
    (hPeer : peerOk (world.log ++ reaction.entries) id reaction.peer)
    (hSends : ∀ letter ∈ reaction.sends, letterOk (world.log ++ reaction.entries) letter) :
    (world.act id reaction).Explained peerOk letterOk where
  peers := by
    intro other
    by_cases hSame : other = id
    · rw [hSame, peers_act_self]
      exact hPeer
    · rw [peers_act_of_ne hSame]
      exact hPeerMono _ _ _ _ log_subset_act (hExplained.peers other)
  letters := by
    intro letter hMem
    obtain hOld | hNew := List.mem_append.mp hMem
    · exact hLetterMono _ _ _ log_subset_act (hExplained.letters letter hOld)
    · exact hSends letter hNew

end World

end Network
