import CerynthOS.Telemetry.Source

/-! CPU usage, computed by the telemetry source in machine words and by the observer of the tools
    in unbounded integers.

    While the counters only grow, the idle time is part of the total, and the two agree. Where they
    go backwards the source still answers with a percentage. -/

namespace CerynthOS.Telemetry

/-! ### Machine words -/

/-- `u64::saturating_sub`. -/
def saturatingSub (a b : UInt64) : UInt64 := if b ≤ a then a - b else 0

theorem toNat_saturatingSub (a b : UInt64) : (saturatingSub a b).toNat = a.toNat - b.toNat := by
  rw [saturatingSub]
  split
  case isTrue h => exact UInt64.toNat_sub_of_le _ _ h
  case isFalse h =>
    rw [UInt64.le_iff_toNat_le] at h
    simp
    omega

/-- `CpuTimes`, in the words of the code. -/
structure CpuWords where
  user : UInt64
  nice : UInt64
  system : UInt64
  idle : UInt64
  iowait : UInt64
  irq : UInt64
  softirq : UInt64
  steal : UInt64
  deriving DecidableEq

namespace CpuWords

/-- What is missing counts as zero. -/
def fromFields (fields : List UInt64) : CpuWords :=
  let f := fun i => fields.getD i 0
  { user := f 0
    nice := f 1
    system := f 2
    idle := f 3
    iowait := f 4
    irq := f 5
    softirq := f 6
    steal := f 7 }

def total (t : CpuWords) : UInt64 :=
  t.user + t.nice + t.system + t.idle + t.iowait + t.irq + t.softirq + t.steal

def idleTotal (t : CpuWords) : UInt64 := t.idle + t.iowait

/-- The floating-point division is exact here. -/
def usagePercentSince (t prev : CpuWords) : ℚ :=
  let totalDelta := saturatingSub t.total prev.total
  let idleDelta := saturatingSub t.idleTotal prev.idleTotal
  if totalDelta = 0 then 0
  else
    let busyDelta := saturatingSub totalDelta idleDelta
    (busyDelta.toNat : ℚ) / totalDelta.toNat * 100

/-- The columns of a reading, in the order of `/proc/stat`. -/
def fields (t : CpuWords) : List UInt64 :=
  [t.user, t.nice, t.system, t.idle, t.iowait, t.irq, t.softirq, t.steal]

/-- The same counters as numbers. -/
def toTimes (t : CpuWords) : CpuTimes where
  user := t.user.toNat
  nice := t.nice.toNat
  system := t.system.toNat
  idle := t.idle.toNat
  iowait := t.iowait.toNat
  irq := t.irq.toNat
  softirq := t.softirq.toNat
  steal := t.steal.toNat

/-- The sum of the counters fits in a word. -/
def Fits (t : CpuWords) : Prop := (t.fields.map UInt64.toNat).sum < 2 ^ 64

/-- No counter has gone backwards. -/
def Grown (prev t : CpuWords) : Prop := List.Forall₂ (· ≤ ·) prev.fields t.fields

/-- What follows the eight counters, such as the guest times, is ignored. -/
@[simp] theorem fromFields_fields (t : CpuWords) (more : List UInt64) :
    fromFields (t.fields ++ more) = t := rfl

variable {t prev : CpuWords}

theorem Fits.total (h : t.Fits) : t.total.toNat = t.toTimes.total := by
  simp only [Fits, fields, List.map_cons, List.map_nil, List.sum_cons, List.sum_nil] at h
  simp (disch := omega) only [CpuWords.total, CpuTimes.total, toTimes, UInt64.toNat_add,
    Nat.mod_eq_of_lt]

theorem Fits.idleTotal (h : t.Fits) : t.idleTotal.toNat = t.toTimes.idleTotal := by
  simp only [Fits, fields, List.map_cons, List.map_nil, List.sum_cons, List.sum_nil] at h
  simp (disch := omega) only [CpuWords.idleTotal, CpuTimes.idleTotal, toTimes, UInt64.toNat_add,
    Nat.mod_eq_of_lt]

/-- In words that do not overflow the usage is that of the numbers. -/
theorem Fits.usagePercentSince (h : t.Fits) (hp : prev.Fits) :
    t.usagePercentSince prev = t.toTimes.usagePercentSince prev.toTimes := by
  rw [CpuWords.usagePercentSince, CpuTimes.usagePercentSince]
  simp only [← UInt64.toNat_inj, toNat_saturatingSub, h.total, hp.total, h.idleTotal, hp.idleTotal,
    UInt64.toNat_zero]

/-- The busy part is cut off on both sides, so it is a part of the total. -/
theorem usagePercentSince_mem (t prev : CpuWords) :
    0 ≤ t.usagePercentSince prev ∧ t.usagePercentSince prev ≤ 100 := by
  rw [usagePercentSince]
  dsimp only
  split
  · norm_num
  · rw [toNat_saturatingSub (saturatingSub t.total prev.total)]
    generalize (saturatingSub t.total prev.total).toNat = total
    generalize (saturatingSub t.idleTotal prev.idleTotal).toNat = idle
    have hle : ((total - idle : ℕ) : ℚ) ≤ total := by exact_mod_cast Nat.sub_le _ _
    have hratio : ((total - idle : ℕ) : ℚ) / total ≤ 1 := div_le_one_of_le₀ hle (by positivity)
    exact ⟨by positivity, by linarith⟩

end CpuWords

/-! ### Growing counters -/

namespace CpuTimes

/-- The usage when the total has grown and what is idle is a part of what is new. -/
theorem usagePercentSince_eq {t prev : CpuTimes} (htotal : prev.total < t.total)
    (hidle : prev.idleTotal ≤ t.idleTotal)
    (hpart : t.idleTotal - prev.idleTotal ≤ t.total - prev.total) :
    t.usagePercentSince prev =
      100 * (1 - ((t.idleTotal : ℚ) - prev.idleTotal) / ((t.total : ℚ) - prev.total)) := by
  have hpos : (0 : ℚ) < (t.total : ℚ) - prev.total := by
    rw [sub_pos]
    exact_mod_cast htotal
  rw [usagePercentSince, if_neg (by omega), Nat.cast_sub hpart, Nat.cast_sub hidle,
    Nat.cast_sub htotal.le]
  field_simp

end CpuTimes

/-! ### The observer -/

/-- `Observer`, as far as it measures the usage: the total and the idle time of the last sample. -/
structure Observer where
  previous : Option (ℤ × ℤ) := none
  deriving DecidableEq

namespace Observer

/-- The total and the idle time of a `cpu` row. A row that is too short is an error. -/
def totals (row : List ℤ) : Option (ℤ × ℤ) := do
  let cpu := row.take 8
  return (cpu.sum, (← cpu[3]?) + (← cpu[4]?))

/-- `cpu_usage_percent`, which is `None` unless the total has grown. -/
def cpuUsagePercent (current old : ℤ × ℤ) : Option ℚ :=
  let delta := current.1 - old.1
  if delta > 0 then some (100 * (1 - ((current.2 - old.2 : ℤ) : ℚ) / (delta : ℚ))) else none

/-- The usage that `Observer.sample` reports for a row, if it reports any, and what it keeps. -/
def sample (self : Observer) (row : List ℤ) : Option (Option ℚ) × Observer :=
  match totals row with
  | none => (none, self)
  | some current => (self.previous.map (cpuUsagePercent current), { previous := some current })

end Observer

namespace CpuWords
variable {t prev : CpuWords}

/-- A reading as the observer finds it, with the columns that follow. -/
def row (t : CpuWords) (more : List ℤ) : List ℤ :=
  t.fields.map (fun n => (n.toNat : ℤ)) ++ more

theorem totals_row (t : CpuWords) (more : List ℤ) :
    Observer.totals (t.row more) = some ((t.toTimes.total : ℤ), (t.toTimes.idleTotal : ℤ)) := by
  simp [Observer.totals, row, fields, toTimes, CpuTimes.total, CpuTimes.idleTotal, add_assoc]

/-- The idle time of a reading is part of its total, and stays so between two readings. -/
theorem Grown.idle (h : Grown prev t) : prev.toTimes.idleTotal ≤ t.toTimes.idleTotal ∧
    t.toTimes.idleTotal - prev.toTimes.idleTotal ≤ t.toTimes.total - prev.toTimes.total := by
  simp only [Grown, fields, List.forall₂_cons, UInt64.le_iff_toNat_le] at h
  simp only [toTimes, CpuTimes.total, CpuTimes.idleTotal]
  omega

/-- For every two readings the usage is a percentage. When they fit in words, no counter has gone
    backwards and the total has advanced, it is what the observer computes from them. -/
theorem usage_percent (t prev : CpuWords) (more more' : List UInt64) (extra extra' : List ℤ)
    (self : Observer) :
    let usage := (fromFields (t.fields ++ more)).usagePercentSince
      (fromFields (prev.fields ++ more'))
    0 ≤ usage ∧ usage ≤ 100 ∧
    (t.Fits → prev.Fits → Grown prev t → prev.toTimes.total < t.toTimes.total →
      usage = 100 * (1 - ((t.toTimes.idleTotal : ℚ) - prev.toTimes.idleTotal) /
        ((t.toTimes.total : ℚ) - prev.toTimes.total)) ∧
      ((self.sample (prev.row extra')).2.sample (t.row extra)).1 = some (some usage)) := by
  dsimp only
  rw [fromFields_fields, fromFields_fields]
  obtain ⟨hlow, hhigh⟩ := usagePercentSince_mem t prev
  refine ⟨hlow, hhigh, fun ht hp hgrown htotal => ?_⟩
  obtain ⟨hidle, hpart⟩ := hgrown.idle
  have husage := (ht.usagePercentSince hp).trans
    (CpuTimes.usagePercentSince_eq htotal hidle hpart)
  refine ⟨husage, ?_⟩
  have hpos : (0 : ℤ) < (t.toTimes.total : ℤ) - prev.toTimes.total := by omega
  rw [husage, Observer.sample, totals_row, Observer.sample, totals_row]
  simp only [Option.map_some, Observer.cpuUsagePercent]
  rw [if_pos hpos]
  push_cast
  rfl

theorem usage_percent_half :
    let t : CpuWords := ⟨30, 0, 20, 140, 10, 0, 0, 0⟩
    let prev : CpuWords := ⟨10, 0, 0, 80, 10, 0, 0, 0⟩
    ((({} : Observer).sample (prev.row [])).2.sample (t.row [])).1 =
      some (some (t.usagePercentSince prev)) := by
  have hgrown : Grown ⟨10, 0, 0, 80, 10, 0, 0, 0⟩ ⟨30, 0, 20, 140, 10, 0, 0, 0⟩ := by
    simp [Grown, fields]
  exact ((usage_percent ⟨30, 0, 20, 140, 10, 0, 0, 0⟩ ⟨10, 0, 0, 80, 10, 0, 0, 0⟩ [] [] [] []
    {}).2.2 (by simp [Fits, fields]) (by simp [Fits, fields]) hgrown (by decide)).2

end CpuWords

end CerynthOS.Telemetry
