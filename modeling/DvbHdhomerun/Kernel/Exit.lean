import DvbHdhomerun.Kernel.Register

/-!
# Unloading the module

The loop of `dvb_hdhomerun_exit` (dvb_hdhomerun_init.c) over the registered tuners, with
`dvb_hdhomerun_data_delete_device` (dvb_hdhomerun_data.c) and `dvb_hdhomerun_remove`. As for a
registration there is no result when a NULL pointer is dereferenced.
-/

namespace DvbHdhomerun

/-- `dvb_hdhomerun_data_delete_device`. The state itself is not freed. -/
def DataDevices.dataDeleteDevice (s : DataDevices) (id : Nat) : Option (List ResourceEvent) :=
  match s.hdhomerunDataStates id with
  | none => none
  | some _ => some [.release .writePage, .release .cdev, .release .deviceNode]

/-- `dvb_hdhomerun_data_exit`. -/
def DataDevices.dataExit (s : DataDevices) : DataDevices := { s with hdhomerunMajor := none }

/-- `dvb_hdhomerun_unregister`. `dvb_unregister_frontend` dereferences `fe`. -/
def Hdhomerun.dvbHdhomerunUnregister (h : Hdhomerun) : Option (List ResourceEvent) :=
  match h.fe with
  | none => none
  | some _ =>
    -- the frontend of the demux is not disconnected
    some [.release .memFrontend, .release .hwFrontend, .release .dmxdev, .release .demux,
      .release .frontendRegistration, .release .frontend, .release .adapter]

/-- `dvb_hdhomerun_remove`, which `platform_device_unregister` calls. -/
def PlatformDevice.dvbHdhomerunRemove (dev : PlatformDevice) : Option (List ResourceEvent) :=
  match dev.drvdata with
  | none => some []
  | some hdhomerun => hdhomerun.dvbHdhomerunUnregister

namespace TunerTable

/-- The loop of `dvb_hdhomerun_exit` from index `i` on: what it releases for each tuner. -/
def exitLoop (data : DataDevices) : Nat → List PlatformDevice → Option (List (List ResourceEvent))
  | _, [] => some []
  | i, dev :: devs =>
    (data.dataDeleteDevice i).bind fun deleted =>
      dev.dvbHdhomerunRemove.bind fun removed =>
        (exitLoop data (i + 1) devs).map fun rest => (deleted ++ removed) :: rest

/-- `dvb_hdhomerun_exit`: what is released, and the variables of the data devices afterwards. -/
def dvbHdhomerunExit (t : TunerTable) : Option (List (List ResourceEvent) × DataDevices) :=
  (exitLoop t.data 0 t.platformDevice).map fun released => (released, t.data.dataExit)

end TunerTable

end DvbHdhomerun
