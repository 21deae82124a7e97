import Mathlib.Data.List.Count
import Mathlib.Data.PNat.Defs
import Mathlib.Tactic.Common
import MissionControl.Library.Machine

/-!
# The counter of unread notifications

The store of the client keeps the notifications, and beside them a number that is shown
as how many of them are unread. The reducers that take a list, or mark all of it, set that
number to what it should be. The other two count one up or one down and do not look at the
notification they were called for: one that comes in read is counted, and marking one that
is read, or not there at all, takes another one off the count.
-/

namespace MissionControl

/-! ## The store -/

/-- `Notification`, as the client has it. -/
structure ClientNotification where
  id : ℤ
  readAt : Option ℤ
  deriving DecidableEq

/-- `!n.read_at`: a time of zero counts as none. -/
def ClientNotification.unread (n : ClientNotification) : Bool :=
  n.readAt = none || n.readAt = some 0

/-- **The slice of the notifications.** -/
structure NotificationState where
  notifications : List ClientNotification
  unreadNotificationCount : ℤ

def NotificationState.initial : NotificationState := ⟨[], 0⟩

/-- A call of a reducer. `now` is the clock in seconds, which is past the first of them. -/
inductive NotificationAction where
  | setNotifications (notifications : List ClientNotification)
  | addNotification (notification : ClientNotification)
  | markNotificationRead (notificationId : ℤ) (now : ℕ+)
  | markAllNotificationsRead (now : ℕ+)

/-- A notification that is read at a time. -/
def ClientNotification.markedAt (now : ℕ+) (n : ClientNotification) : ClientNotification :=
  { n with readAt := some (now : ℕ) }

namespace NotificationState

def setNotifications (notifications : List ClientNotification) : NotificationState where
  notifications := notifications
  unreadNotificationCount := (notifications.filter ClientNotification.unread).length

def addNotification (s : NotificationState) (notification : ClientNotification) :
    NotificationState where
  notifications := notification :: s.notifications
  unreadNotificationCount := s.unreadNotificationCount + 1

def markNotificationRead (s : NotificationState) (notificationId : ℤ) (now : ℕ+) :
    NotificationState where
  notifications := s.notifications.map fun n => if n.id = notificationId then n.markedAt now else n
  unreadNotificationCount := max 0 (s.unreadNotificationCount - 1)

def markAllNotificationsRead (s : NotificationState) (now : ℕ+) : NotificationState where
  notifications := s.notifications.map fun n => if n.unread then n.markedAt now else n
  unreadNotificationCount := 0

end NotificationState

/-- **The reducers of the notifications.** -/
def notificationStore : Machine NotificationState NotificationAction Empty where
  step s
    | .setNotifications notifications => (.setNotifications notifications, [])
    | .addNotification notification => (s.addNotification notification, [])
    | .markNotificationRead id now => (s.markNotificationRead id now, [])
    | .markAllNotificationsRead now => (s.markAllNotificationsRead now, [])

/-! ## The counter -/

def NotificationState.unreadCount (s : NotificationState) : ℕ :=
  s.notifications.countP ClientNotification.unread

/-- How many notifications with an id are unread. -/
def NotificationState.unreadWith (s : NotificationState) (id : ℤ) : ℕ :=
  s.notifications.countP fun n => n.unread && n.id = id

/-- **The counter is right.** -/
def NotificationState.Counts (s : NotificationState) : Prop :=
  s.unreadNotificationCount = s.unreadCount

instance (s : NotificationState) : Decidable s.Counts := inferInstanceAs (Decidable (_ = _))

/-- **A call keeps the counter right**: what is added is unread, and of what is marked just
one is, unless nothing is unread at all. -/
def NotificationState.KeepsCount (s : NotificationState) : NotificationAction → Prop
  | .addNotification notification => notification.unread = true
  | .markNotificationRead id _ => s.unreadWith id = 1 ∨ s.unreadCount = 0
  | _ => True

instance (s : NotificationState) (a : NotificationAction) : Decidable (s.KeepsCount a) :=
  match a with
  | .setNotifications _ | .markAllNotificationsRead _ => inferInstanceAs (Decidable True)
  | .addNotification _ => inferInstanceAs (Decidable (_ = _))
  | .markNotificationRead _ _ => inferInstanceAs (Decidable (_ ∨ _))

theorem ClientNotification.unread_markedAt (now : ℕ+) (n : ClientNotification) :
    (n.markedAt now).unread = false := by
  simp [unread, markedAt]

/-- **Marking takes the unread ones with the id off.** -/
theorem countP_mark (id : ℤ) (now : ℕ+) (ns : List ClientNotification) :
    (ns.map fun n => if n.id = id then n.markedAt now else n).countP ClientNotification.unread
        + ns.countP (fun n => n.unread && n.id = id)
      = ns.countP ClientNotification.unread := by
  induction ns with
  | nil => rfl
  | cons n ns ih =>
    rw [List.map_cons, List.countP_cons, List.countP_cons, List.countP_cons]
    by_cases hid : n.id = id
    · rw [if_pos hid, ClientNotification.unread_markedAt, decide_eq_true hid, Bool.and_true]
      simp only [Bool.false_eq_true, if_false]
      omega
    · rw [if_neg hid, decide_eq_false hid, Bool.and_false]
      simp only [Bool.false_eq_true, if_false]
      omega

theorem countP_markAll (now : ℕ+) (ns : List ClientNotification) :
    (ns.map fun n => if n.unread then n.markedAt now else n).countP ClientNotification.unread
      = 0 := by
  rw [List.countP_eq_zero]
  intro n hn
  obtain ⟨m, -, rfl⟩ := List.mem_map.mp hn
  split
  · rw [ClientNotification.unread_markedAt]
    exact Bool.false_ne_true
  · next h => exact h

/-- **What a call makes of a right counter.** -/
theorem counts_next_iff (s : NotificationState) (a : NotificationAction) (h : s.Counts) :
    (notificationStore.next s a).Counts ↔ s.KeepsCount a := by
  unfold NotificationState.Counts NotificationState.unreadCount at *
  cases a with
  | setNotifications notifications =>
    refine iff_of_true ?_ trivial
    exact congrArg _ List.countP_eq_length_filter.symm
  | addNotification notification =>
    show s.unreadNotificationCount + 1 = ((notification :: s.notifications).countP _ : ℕ)
      ↔ notification.unread = true
    rw [List.countP_cons, h]
    by_cases hunread : notification.unread = true
    · rw [if_pos hunread]
      exact iff_of_true rfl hunread
    · rw [if_neg hunread]
      exact iff_of_false (by omega) hunread
  | markNotificationRead id now =>
    have hmark := countP_mark id now s.notifications
    show max 0 (s.unreadNotificationCount - 1) = ((s.notifications.map _).countP _ : ℕ)
      ↔ s.unreadWith id = 1 ∨ s.unreadCount = 0
    unfold NotificationState.unreadWith NotificationState.unreadCount
    rw [h]
    omega
  | markAllNotificationsRead now =>
    refine iff_of_true ?_ trivial
    exact (congrArg Int.ofNat (countP_markAll now s.notifications)).symm

/-- **The counter is right all along a run of calls exactly if each of them keeps it so.** -/
theorem notificationStore_counts_iff (as : List NotificationAction) :
    notificationStore.Always NotificationState.Counts .initial as
      ↔ notificationStore.EachStep NotificationState.KeepsCount .initial as :=
  have hinitial : NotificationState.initial.Counts := rfl
  notificationStore.always_iff_eachStep (J := fun _ => True) trivial (fun _ _ _ => trivial)
    hinitial (fun s a _ h => counts_next_iff s a h) as

/-- A notification comes in, and one that is not there is marked as read. -/
def sampleUnknownMark : List NotificationAction :=
  [.addNotification ⟨1, none⟩, .markNotificationRead 2 1]

/-- **The counter says that nothing is unread**, and the notification is. -/
theorem not_counts_sampleUnknownMark :
    ¬ notificationStore.Always NotificationState.Counts .initial sampleUnknownMark := by
  intro h
  have hcounts := h sampleUnknownMark (List.prefix_refl _)
  exact absurd hcounts (by decide)

end MissionControl
