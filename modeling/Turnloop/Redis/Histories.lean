import Turnloop.Redis.Laws
import Turnloop.Redis.Replies

/-! Whole histories of a Redis connection: any calls of its host, any bytes of its server. -/

namespace Turnloop.Redis

open Lib Lib.Program

variable {D : Doubles}

inductive Call where
  | connect (now : ℕ)
  | transportConnected
  | tlsEstablished
  | command (token : ℕ) (args : List Bytes) (deadline : Option ℕ)
  | receive (bytes : Bytes)
  | handleTimeout (now : ℕ)
  | transportLost
  | retry (now : ℕ) (delay : Option ℕ)
  | close
  | pollEvent
  | consumeOutput (count : ℕ)

/-- A connection, the events the host has polled, and the commands that were accepted. -/
structure History (D : Doubles) where
  conn : Connection D
  polled : List (Event D.F64)
  accepted : List ℕ

namespace History

def step (h : History D) : Call → History D
  | .connect now => { h with conn := (Connection.connect now h.conn).2 }
  | .transportConnected => { h with conn := (Connection.transportConnected h.conn).2 }
  | .tlsEstablished => { h with conn := (Connection.tlsEstablished h.conn).2 }
  | .command token args deadline =>
    match Connection.command token args deadline h.conn with
    | (.ok _, c) => { h with conn := c, accepted := h.accepted ++ [token] }
    | (.error _, c) => { h with conn := c }
  | .receive bytes => { h with conn := (Connection.receive bytes h.conn).2 }
  | .handleTimeout now => { h with conn := h.conn.handleTimeout now }
  | .transportLost => { h with conn := h.conn.transportLost }
  | .retry now delay => { h with conn := (Connection.retry now delay h.conn).2 }
  | .close => { h with conn := h.conn.close }
  | .pollEvent =>
    { h with
      conn := { h.conn with events := h.conn.events.tail }
      polled := h.polled ++ h.conn.events.head?.toList }
  | .consumeOutput count => { h with conn := h.conn.consumeOutput count }

def run (config : Config) (calls : List Call) : History D := calls.foldl step ⟨.new config, [], []⟩

def events (h : History D) : List (Event D.F64) := h.polled ++ h.conn.events

structure Balanced (h : History D) : Prop where
  total : (h.accepted : Multiset ℕ) = replies h.events + h.conn.owes
  distinct : h.conn.owes.Nodup
  settled : h.conn.Settled

lemma Balanced.kept {h : History D} {c : Connection D} (hb : h.Balanced) (hc : h.conn.Kept c) :
    Balanced { h with conn := c } := by
  obtain ⟨_, he, ho⟩ := hc.replied
  refine ⟨?_, ?_, hc.settled hb.settled⟩
  · rw [hb.total, events, events, he, ho]
    simp only [replies_append]
    abel
  · have hd := hb.distinct
    rw [ho] at hd
    exact Multiset.nodup_of_le (Multiset.le_add_right _ _) hd

lemma Balanced.step {h : History D} (hb : h.Balanced) (call : Call) : (h.step call).Balanced := by
  cases call with
  | connect now => exact hb.kept Connection.connect_kept
  | transportConnected => exact hb.kept Connection.transportConnected_kept
  | tlsEstablished => exact hb.kept Connection.tlsEstablished_kept
  | command token args deadline =>
    have hp : Post (Connection.command token args deadline) h.conn _ _ := Connection.command_post
    unfold Post at hp
    change Balanced (match Connection.command token args deadline h.conn with
      | (.ok _, c) => { h with conn := c, accepted := h.accepted ++ [token] }
      | (.error _, c) => { h with conn := c })
    rcases hr : Connection.command token args deadline h.conn with ⟨r, c⟩
    rw [hr] at hp
    cases r with
    | ok _ =>
      obtain ⟨hn, ho, he, hs⟩ := hp
      refine ⟨?_, ?_, hs hb.settled⟩
      · change ((h.accepted ++ [token] : List ℕ) : Multiset ℕ) = replies (h.polled ++ c.events) + c.owes
        rw [← Multiset.coe_add, hb.total, ho, he, Multiset.coe_singleton, ← Multiset.singleton_add, events]
        abel
      · change c.owes.Nodup
        rw [ho]
        exact Multiset.nodup_cons.mpr ⟨hn, hb.distinct⟩
    | error =>
      obtain rfl : c = h.conn := hp
      exact hb
  | receive bytes => exact hb.kept Connection.receive_kept
  | handleTimeout now => exact hb.kept (Connection.handleTimeout_kept now)
  | transportLost => exact hb.kept Connection.transportLost_kept
  | retry now delay => exact hb.kept Connection.retry_kept
  | close => exact hb.kept Connection.close_kept
  | pollEvent =>
    have ha : (h.step .pollEvent).events = h.events := by
      change h.polled ++ h.conn.events.head?.toList ++ h.conn.events.tail = h.polled ++ h.conn.events
      cases h.conn.events <;> simp
    exact ⟨by rw [ha]; exact hb.total, hb.distinct, hb.settled⟩
  | consumeOutput count => exact hb.kept Connection.consumeOutput_kept

lemma balanced (config : Config) (calls : List Call) : (run config calls : History D).Balanced := by
  have hr : ∀ h : History D, h.Balanced → (calls.foldl step h).Balanced := by
    induction calls with
    | nil => exact fun h hb => hb
    | cons call calls ih => exact fun h hb => ih _ (hb.step call)
  exact hr _ ⟨rfl, Multiset.nodup_zero, fun _ => rfl, .inl rfl⟩

end History

theorem replied_exactly_once (config : Config) (calls : List Call) (token : ℕ) :
    let h : History D := History.run config calls
    h.accepted.count token = (replies h.events).count token + h.conn.owes.count token ∧ h.conn.owes.count token ≤ 1 ∧
      (h.conn.state = .Closed → h.accepted.count token = (replies h.events).count token) := by
  intro h
  have hb : h.Balanced := History.balanced config calls
  have ht : h.accepted.count token = (replies h.events).count token + h.conn.owes.count token := by
    rw [← Multiset.coe_count, hb.total, Multiset.count_add]
  refine ⟨ht, Multiset.nodup_iff_count_le_one.mp hb.distinct token, fun hc => ?_⟩
  have hw : h.conn.owes = 0 := by
    rw [Connection.owes, hb.settled.idle (by simp [Connection.Waits, hc]), hb.settled.1 hc]
    rfl
  rw [ht, hw, Multiset.count_zero, Nat.add_zero]

theorem replied_exactly_once_offline :
    let D : Doubles := ⟨ℕ, 0, 0, 0, fun _ => none⟩
    let config : Config := ⟨none, none, 0, none, false, false, true, true, true, none, 10, ⟨64, 8, 2⟩⟩
    let h : History D := History.run config [.command 7 [ascii "PING"] none, .close]
    h.conn.state = .Closed ∧ h.accepted.count 7 = 1 ∧ (replies h.events).count 7 = 1 := by
  intro D config h
  have hs : h.conn.state = .Closed := by decide +kernel
  have ha : h.accepted.count 7 = 1 := by decide +kernel
  refine ⟨hs, ha, ?_⟩
  rw [← (replied_exactly_once (D := D) config [.command 7 [ascii "PING"] none, .close] 7).2.2 hs]
  exact ha

end Turnloop.Redis
