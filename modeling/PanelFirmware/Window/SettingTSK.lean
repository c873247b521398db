import Mathlib.Data.Option.Basic

/-!
# `window/src/settingTSK.cpp`: the items of the settings menu and their callbacks

The menu is a table of items that point to each other. The submenus of an instrument's calibration
points share their items: which point was entered is known from the path alone.

A callback is given by the calls of the regulator that it makes and by what it does with their
results; the parameters it sets besides are left out.
-/

namespace PanelFirmware.Window

/-! ### The callbacks -/

/-- The functions of the regulator that the callbacks call. Source: `regulatorConnTSK.c` `reg_*`. -/
inductive RegCall
  | calibrationTimeGet
  | vFilterSizeSet
  | iFilterSizeSet
  | vIntegrationSizeSet
  | iIntegrationSizeSet
  | dacMaxValueGet
  | modeSet
  | enableSet (state : Bool)
  | dacCurrentSet
  | dacVoltageSet
  | currentSet
  | voltageSet
  | serialGet
  | getState
  | saveSettingsSet
  | saveSettingsGet
  | setVoltagePoint
  | setMicroCurrentPoint
  | setCurrentPoint
  | crangeSet
  | wireResistanceSet
  deriving DecidableEq

/-- What a callback does with the result of a call: it ignores it, it fails if the call does, or it
fails at once. -/
inductive Use
  | ignored
  | collected
  | required
  deriving DecidableEq

/-- Source: `settingTSK.cpp`. -/
inductive Callback
  | setBright
  | updateDST
  | calibrDateSelect
  | calibrDateUnselect
  | setAcquisition
  | rtcSelect
  | rtcUnselect
  | prepareU
  | prepareMicroI
  | prepareI
  | prepareWireResistance
  | prepareInfo
  | updateReg
  | saveSettings
  | updateSaveSettings
  | savePointU
  | savePointMicroI
  | setCrange
  | savePointI
  | setWireresistanse
  | netUpdate
  | calibrExit
  deriving DecidableEq

/-- The calls of a callback that sets up a calibration point, which are the same for all three
instruments. Source: `settingTSK.cpp` `PrepareU`, `PrepareMicroI`, `PrepareI`. -/
def preparePoint : List (RegCall × Use) :=
  [(.dacMaxValueGet, .required), (.modeSet, .ignored), (.enableSet true, .ignored),
    (.dacCurrentSet, .ignored), (.dacVoltageSet, .required)]

/-- The calls of a callback. Source: `settingTSK.cpp`. -/
def Callback.body : Callback → List (RegCall × Use)
  | .setBright => []
  | .updateDST => []
  | .calibrDateSelect => [(.calibrationTimeGet, .ignored)]
  | .calibrDateUnselect => []
  | .setAcquisition =>
      [(.vFilterSizeSet, .collected), (.iFilterSizeSet, .collected),
        (.vIntegrationSizeSet, .collected), (.iIntegrationSizeSet, .collected)]
  | .rtcSelect => []
  | .rtcUnselect => []
  | .prepareU => preparePoint
  | .prepareMicroI => preparePoint
  | .prepareI => preparePoint
  | .prepareWireResistance =>
      [(.modeSet, .ignored), (.enableSet true, .ignored), (.currentSet, .ignored),
        (.voltageSet, .required)]
  | .prepareInfo => [(.serialGet, .required)]
  | .updateReg => [(.getState, .required)]
  | .saveSettings => [(.saveSettingsSet, .required)]
  | .updateSaveSettings => [(.saveSettingsGet, .required)]
  | .savePointU => [(.dacVoltageSet, .ignored), (.setVoltagePoint, .ignored)]
  | .savePointMicroI => [(.dacVoltageSet, .ignored), (.setMicroCurrentPoint, .ignored)]
  | .setCrange => [(.crangeSet, .ignored)]
  | .savePointI => [(.dacCurrentSet, .ignored), (.setCurrentPoint, .ignored)]
  | .setWireresistanse => [(.wireResistanceSet, .ignored)]
  | .netUpdate => []
  | .calibrExit => [(.enableSet false, .required)]

/-- The callbacks that set up the regulator for a calibration.
Source: `settingTSK.cpp` `PrepareU`, `PrepareMicroI`, `PrepareI`, `PrepareWireResistance`. -/
def Callback.isPrepare : Callback → Bool
  | .prepareU | .prepareMicroI | .prepareI | .prepareWireResistance => true
  | _ => false

/-! ### The items -/

/-- Source: `menuSystem.cpp` `clockEditor`, `ipAddressEditor`, `ipMacEditor`. -/
inductive Editor
  | clockEditor
  | ipAddressEditor
  | ipMacEditor
  deriving DecidableEq

/-- Source: `settingTSK.cpp`. -/
inductive Item
  | m1 | m11 | m12 | m120 | m121 | m122 | m13 | m130 | m131 | m132 | m133 | m1330 | m1331 | m1332
  | m1333 | m1334 | m14 | m140 | m141 | m142 | m1430 | m1431 | m1432 | m1433 | m1434 | m1435 | m15
  | m150 | m151 | m152 | m153 | m1530 | m1531 | m1532 | m1533 | m1534 | m16 | m160 | m161 | m162
  | m163 | m164 | m165 | m166 | m167 | m168 | m17 | m18 | m170 | m171 | m172 | m173 | m19 | m2 | m20
  | m21 | m22 | m23 | m230 | m231 | m232 | m233 | m234 | m235 | m24 | m240 | m241 | m242 | m243
  | m244 | m245 | m3 | m30 | m31 | m32 | m33 | m34 | m35 | m350 | m351 | m352 | m353 | m354 | m4
  | m5 | m50 | m51 | m52 | m53 | m54
  deriving DecidableEq

/-- An item: whether it has a parameter and whether it can be changed, its callbacks, its neighbours
and its submenu or editor. Source: `menuSystem.h` `MenuItem`. -/
structure MenuItem where
  prm : Bool
  change : Bool
  pChange : Option Callback
  pSelect : Option Callback
  pUnselect : Option Callback
  pPeriod : Option Callback
  next : Option Item
  previous : Option Item
  child : Option Item
  editor : Option Editor

/-- The table of the items. Source: `settingTSK.cpp`. -/
def Item.get : Item → MenuItem
  | .m1 => ⟨false, true, none, none, none, none, some .m2, none, some .m11, none⟩
  | .m11 => ⟨true, true, some .setCrange, none, none, some .updateReg, some .m12, none, none, none⟩
  | .m12 =>
      ⟨false, false, none, some .prepareWireResistance, some .calibrExit, none, some .m13,
        some .m11, some .m120, none⟩
  | .m120 =>
      ⟨true, true, some .setWireresistanse, none, none, some .updateReg, some .m121, none, none,
        none⟩
  | .m121 =>
      ⟨true, true, some .setWireresistanse, none, none, some .updateReg, some .m122, some .m120,
        none, none⟩
  | .m122 => ⟨true, false, none, none, none, some .updateReg, none, some .m121, none, none⟩
  | .m13 => ⟨false, true, none, none, none, none, some .m14, some .m12, some .m130, none⟩
  | .m130 =>
      ⟨false, true, none, some .prepareU, some .calibrExit, none, some .m131, none, some .m1330,
        none⟩
  | .m131 =>
      ⟨false, true, none, some .prepareU, some .calibrExit, none, some .m132, some .m130,
        some .m1330, none⟩
  | .m132 =>
      ⟨false, true, none, some .prepareU, some .calibrExit, none, some .m133, some .m131,
        some .m1330, none⟩
  | .m133 =>
      ⟨false, true, none, some .prepareU, some .calibrExit, none, none, some .m132, some .m1330,
        none⟩
  | .m1330 =>
      ⟨true, true, some .savePointU, none, none, some .updateReg, some .m1331, none, none, none⟩
  | .m1331 =>
      ⟨true, true, some .savePointU, none, none, some .updateReg, some .m1332, some .m1330, none,
        none⟩
  | .m1332 =>
      ⟨true, false, some .savePointU, none, none, some .updateReg, some .m1333, some .m1331, none,
        none⟩
  | .m1333 =>
      ⟨true, false, some .savePointU, none, none, some .updateReg, some .m1334, some .m1332, none,
        none⟩
  | .m1334 =>
      ⟨true, false, some .savePointU, none, none, some .updateReg, none, some .m1333, none, none⟩
  | .m14 => ⟨false, true, none, none, none, none, some .m15, some .m13, some .m140, none⟩
  | .m140 =>
      ⟨false, true, none, some .prepareMicroI, some .calibrExit, none, some .m141, none,
        some .m1430, none⟩
  | .m141 =>
      ⟨false, true, none, some .prepareMicroI, some .calibrExit, none, some .m142, some .m140,
        some .m1430, none⟩
  | .m142 =>
      ⟨false, true, none, some .prepareMicroI, some .calibrExit, none, none, some .m141,
        some .m1430, none⟩
  | .m1430 =>
      ⟨true, true, some .savePointMicroI, none, none, some .updateReg, some .m1431, none, none,
        none⟩
  | .m1431 =>
      ⟨true, true, some .savePointMicroI, none, none, some .updateReg, some .m1432, some .m1430,
        none, none⟩
  | .m1432 => ⟨true, false, none, none, none, some .updateReg, some .m1433, some .m1431, none, none⟩
  | .m1433 => ⟨true, false, none, none, none, some .updateReg, some .m1434, some .m1432, none, none⟩
  | .m1434 => ⟨true, false, none, none, none, some .updateReg, some .m1435, some .m1433, none, none⟩
  | .m1435 =>
      ⟨true, true, some .setCrange, none, none, some .updateReg, none, some .m1434, none, none⟩
  | .m15 => ⟨false, true, none, none, none, none, some .m16, some .m14, some .m150, none⟩
  | .m150 =>
      ⟨false, true, none, some .prepareI, some .calibrExit, none, some .m151, none, some .m1530,
        none⟩
  | .m151 =>
      ⟨false, true, none, some .prepareI, some .calibrExit, none, some .m152, some .m150,
        some .m1530, none⟩
  | .m152 =>
      ⟨false, true, none, some .prepareI, some .calibrExit, none, some .m153, some .m151,
        some .m1530, none⟩
  | .m153 =>
      ⟨false, true, none, some .prepareI, some .calibrExit, none, none, some .m152, some .m1530,
        none⟩
  | .m1530 =>
      ⟨true, true, some .savePointI, none, none, some .updateReg, some .m1531, none, none, none⟩
  | .m1531 =>
      ⟨true, true, some .savePointI, none, none, some .updateReg, some .m1532, some .m1530, none,
        none⟩
  | .m1532 =>
      ⟨true, false, some .savePointI, none, none, some .updateReg, some .m1533, some .m1531, none,
        none⟩
  | .m1533 =>
      ⟨true, false, some .savePointI, none, none, some .updateReg, some .m1534, some .m1532, none,
        none⟩
  | .m1534 =>
      ⟨true, false, some .savePointI, none, none, some .updateReg, none, some .m1533, none, none⟩
  | .m16 =>
      ⟨false, false, none, some .prepareInfo, none, none, some .m17, some .m15, some .m160, none⟩
  | .m160 => ⟨true, false, none, none, none, some .updateReg, some .m161, none, none, none⟩
  | .m161 => ⟨true, false, none, none, none, some .updateReg, some .m162, some .m160, none, none⟩
  | .m162 => ⟨true, false, none, none, none, some .updateReg, some .m163, some .m161, none, none⟩
  | .m163 => ⟨true, false, none, none, none, some .updateReg, some .m164, some .m162, none, none⟩
  | .m164 => ⟨true, false, none, none, none, some .updateReg, some .m165, some .m163, none, none⟩
  | .m165 => ⟨true, false, none, none, none, some .updateReg, some .m166, some .m164, none, none⟩
  | .m166 => ⟨true, false, none, none, none, some .updateReg, some .m167, some .m165, none, none⟩
  | .m167 => ⟨true, false, none, none, none, some .updateReg, some .m168, some .m166, none, none⟩
  | .m168 => ⟨true, false, none, none, none, some .updateReg, none, some .m167, none, none⟩
  | .m17 =>
      ⟨true, false, none, some .calibrDateSelect, some .calibrDateUnselect, none, some .m18,
        some .m16, none, some .clockEditor⟩
  | .m18 => ⟨false, true, none, none, none, none, some .m19, some .m17, some .m170, none⟩
  | .m170 => ⟨true, true, some .setAcquisition, none, none, none, some .m171, none, none, none⟩
  | .m171 =>
      ⟨true, true, some .setAcquisition, none, none, none, some .m172, some .m170, none, none⟩
  | .m172 =>
      ⟨true, true, some .setAcquisition, none, none, none, some .m173, some .m171, none, none⟩
  | .m173 => ⟨true, true, some .setAcquisition, none, none, none, none, some .m172, none, none⟩
  | .m19 =>
      ⟨true, true, some .saveSettings, none, none, some .updateSaveSettings, none, some .m17, none,
        none⟩
  | .m2 => ⟨false, true, none, none, none, none, some .m3, some .m1, some .m20, none⟩
  | .m20 =>
      ⟨true, true, none, some .rtcSelect, some .rtcUnselect, none, some .m21, none, none,
        some .clockEditor⟩
  | .m21 => ⟨true, true, none, none, none, none, some .m22, some .m20, none, none⟩
  | .m22 => ⟨true, true, none, none, none, none, some .m23, some .m21, none, none⟩
  | .m23 => ⟨false, true, none, none, some .updateDST, none, some .m24, some .m22, some .m230, none⟩
  | .m230 => ⟨true, true, none, none, none, none, some .m231, none, none, none⟩
  | .m231 => ⟨true, true, none, none, none, none, some .m232, some .m230, none, none⟩
  | .m232 => ⟨true, true, none, none, none, none, some .m233, some .m231, none, none⟩
  | .m233 => ⟨true, true, none, none, none, none, some .m234, some .m232, none, none⟩
  | .m234 => ⟨true, true, none, none, none, none, some .m235, some .m233, none, none⟩
  | .m235 => ⟨true, true, none, none, none, none, none, some .m234, none, none⟩
  | .m24 => ⟨false, true, none, none, some .updateDST, none, none, some .m23, some .m240, none⟩
  | .m240 => ⟨true, true, none, none, none, none, some .m241, none, none, none⟩
  | .m241 => ⟨true, true, none, none, none, none, some .m242, some .m240, none, none⟩
  | .m242 => ⟨true, true, none, none, none, none, some .m243, some .m241, none, none⟩
  | .m243 => ⟨true, true, none, none, none, none, some .m244, some .m242, none, none⟩
  | .m244 => ⟨true, true, none, none, none, none, some .m245, some .m243, none, none⟩
  | .m245 => ⟨true, true, none, none, none, none, none, some .m244, none, none⟩
  | .m3 => ⟨false, true, none, none, some .netUpdate, none, some .m4, some .m2, some .m30, none⟩
  | .m30 => ⟨true, true, none, none, none, none, some .m31, none, none, none⟩
  | .m31 => ⟨true, true, none, none, none, none, some .m32, some .m30, none, some .ipAddressEditor⟩
  | .m32 => ⟨true, true, none, none, none, none, some .m33, some .m31, none, some .ipAddressEditor⟩
  | .m33 => ⟨true, true, none, none, none, none, some .m34, some .m32, none, some .ipAddressEditor⟩
  | .m34 => ⟨true, true, none, none, none, none, some .m35, some .m33, none, some .ipAddressEditor⟩
  | .m35 => ⟨false, true, none, none, none, none, none, some .m34, some .m350, none⟩
  | .m350 => ⟨true, false, none, none, none, none, some .m351, none, none, some .ipAddressEditor⟩
  | .m351 =>
      ⟨true, false, none, none, none, none, some .m352, some .m350, none, some .ipAddressEditor⟩
  | .m352 =>
      ⟨true, false, none, none, none, none, some .m353, some .m351, none, some .ipAddressEditor⟩
  | .m353 =>
      ⟨true, false, none, none, none, none, some .m354, some .m352, none, some .ipAddressEditor⟩
  | .m354 => ⟨true, false, none, none, none, none, none, some .m353, none, some .ipMacEditor⟩
  | .m4 => ⟨true, true, some .setBright, none, none, none, some .m5, some .m3, none, none⟩
  | .m5 => ⟨false, true, none, none, none, none, none, some .m4, some .m50, none⟩
  | .m50 => ⟨true, true, none, none, none, none, some .m51, none, none, none⟩
  | .m51 => ⟨true, true, none, none, none, none, some .m52, some .m50, none, none⟩
  | .m52 => ⟨true, true, none, none, none, none, some .m53, some .m51, none, none⟩
  | .m53 => ⟨true, true, none, none, none, none, some .m54, some .m52, none, none⟩
  | .m54 => ⟨true, true, none, none, none, none, none, some .m53, none, none⟩

end PanelFirmware.Window
