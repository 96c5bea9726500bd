import Riscmulator.Csr

/-! Physical memory protection as `rv_pmp_check` decides it. -/

namespace Riscmulator

/-- `pmpaddr_match`: `paddr` lies in the NAPOT region that the stored value encodes. -/
def pmpaddrMatch (paddr pmpaddrVal : U64) : Bool :=
  let qmask := pmpaddrVal ^^^ (pmpaddrVal + 1)
  let bmask := (qmask <<< 2) ||| 3
  let base := (pmpaddrVal &&& ~~~qmask) <<< 2
  (paddr &&& ~~~bmask) == base

/-- Whether entry `i` takes part in a check: it is enabled, and in M-mode locked. -/
def rvPmpApplies (cpu : RvCpu) (mMode : Bool) (i : Fin 64) : Bool :=
  let cfg := cpu.csr.pmpcfgUnpacked i
  let locked := cfg.getLsbD rvPmpcfgLBit
  let enabled := cfg.getLsbD (rvPmpcfgABaseBit + 1)
  enabled && !(mMode && !locked)

/-- One round of the loop in `rv_pmp_check`; `none` continues with the next entry. -/
def rvPmpEntry (cpu : RvCpu) (paddr paddr1 : U64) (mMode : Bool) (i : Fin 64) : Option U8 :=
  let cfg := cpu.csr.pmpcfgUnpacked i
  if !rvPmpApplies cpu mMode i then none
  else
    let match0 := pmpaddrMatch paddr (cpu.csr.pmpaddr i)
    let match1 := pmpaddrMatch paddr1 (cpu.csr.pmpaddr i)
    -- A range that spans an edge of the region is always forbidden.
    if match0 != match1 then some 0
    else if !match0 then none
    else some (cfg &&& 7)

/-- `rv_pmp_check`: the permission bits seen by an access of `size` bytes. -/
def rvPmpCheck (cpu : RvCpu) (paddr size : U64) (mMode : Bool) : U8 :=
  let paddr1 := paddr + size - 1
  ((List.finRange 64).findSome? (rvPmpEntry cpu paddr paddr1 mMode)).getD
    (if mMode then 7 else 0)

/-- A check reads nothing of the core but its PMP registers. -/
theorem rvPmpCheck_congr {cpu cpu' : RvCpu} (hcfg : cpu'.csr.pmpcfg = cpu.csr.pmpcfg)
    (haddr : cpu'.csr.pmpaddr = cpu.csr.pmpaddr) (paddr size : U64) (mMode : Bool) :
    rvPmpCheck cpu' paddr size mMode = rvPmpCheck cpu paddr size mMode := by
  have hbyte : cpu'.csr.pmpcfgUnpacked = cpu.csr.pmpcfgUnpacked := by
    funext i
    simp only [RvCsrState.pmpcfgUnpacked, hcfg]
  have hentry : rvPmpEntry cpu' paddr (paddr + size - 1) mMode =
      rvPmpEntry cpu paddr (paddr + size - 1) mMode := by
    funext i
    have happlies : rvPmpApplies cpu' mMode i = rvPmpApplies cpu mMode i := by
      simp only [rvPmpApplies, hbyte]
    simp only [rvPmpEntry, happlies, hbyte, haddr]
  simp only [rvPmpCheck, hentry]

end Riscmulator
