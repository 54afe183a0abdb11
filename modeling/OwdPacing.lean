import OwdPacing.ChosenSubflow
import OwdPacing.ClockIndependence
import OwdPacing.Convergence
import OwdPacing.Duration
import OwdPacing.FastPath
import OwdPacing.Loss
import OwdPacing.ProbeSchedule
import OwdPacing.ResultFile
import OwdPacing.SamplingDump
import OwdPacing.Server
import OwdPacing.Simultaneous
import OwdPacing.Sockets
import OwdPacing.SteadyEstimates
import OwdPacing.SteadyRecords
