import FuriOS.BlockCacheFaults
import FuriOS.Ext4.Recovery
import FuriOS.Task.SigreturnSpec
import FuriOS.Task.ExecBounds
import FuriOS.Task.Reaping
import FuriOS.Task.SignalRun
import FuriOS.Task.StopRun
import FuriOS.Task.WaitRun
import FuriOS.Task.AllocRun
import FuriOS.FileViews
import FuriOS.PathNames
import FuriOS.Task.IsolationRun
import FuriOS.Net.Icmp
import FuriOS.Net.StatesRun
import FuriOS.Net.ConnectionRun
import FuriOS.Ld.InitOrder
import FuriOS.User.AllocRun
import FuriOS.Ext4.Segments
import FuriOS.Ext4.CommitParse
import FuriOS.User.Shell
import FuriOS.Ext4.ChecksumSpec
import FuriOS.Ext4.TxTables
import FuriOS.User.Netdb
import FuriOS.Ld.MapSegments
